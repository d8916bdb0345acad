import QuicWorkbench.Proofs.History
import QuicWorkbench.Proofs.Replayable

/-!
# What the verifier says about the bandwidth of a run

The sends that the verifier replays on a link of a run are those that its pacer has let through, with the sizes of the
packets, so its window is the one of these sends (`MeterInv`). It reports that the link exceeds its bandwidth exactly if
some packet could not have been sent while the link was idle.
-/

namespace QuicWorkbench

/-! ### The window of a replayed link -/

/-- The window of the replayed link is that of the sends. -/
def ReplayedLink.Meters (bandwidthBps : Nat) (sends : List LinkSend) (l : ReplayedLink) : Prop :=
  ∃ l₀, replayedAfter bandwidthBps sends = some l₀ ∧ l.window = l₀.window

namespace ReplayedLink
variable {bandwidthBps usage : Nat} {sends : List LinkSend} {l l' : ReplayedLink} {x : LinkSend}

theorem Meters.packetSent (h : l.Meters bandwidthBps sends)
    (hsent : l.packetSent x.time x.sizeBytes bandwidthBps = some (l', usage)) :
    l'.Meters bandwidthBps (sends ++ [x]) ∧ observedUsage bandwidthBps sends x = some usage := by
  obtain ⟨l₀, hreplayed, hwindow⟩ := h
  rw [packetSent_eq_push] at hsent
  obtain ⟨w, hpush, heq⟩ := Option.map_eq_some_iff.1 hsent
  obtain ⟨rfl, rfl⟩ := Prod.mk.inj heq
  have hsent₀ : l₀.packetSent x.time x.sizeBytes bandwidthBps =
      some (l₀.withWindow w, w.total / windowSeconds bandwidthBps) := by
    rw [packetSent_eq_push, ← hwindow, hpush, Option.map_some]
  constructor
  · refine ⟨l₀.withWindow w, ?_, rfl⟩
    rw [replayedAfter] at hreplayed ⊢
    rw [List.foldlM_append, hreplayed]
    simp [hsent₀]
  · rw [observedUsage, hreplayed, Option.bind_some, hsent₀, Option.map_some]

end ReplayedLink

theorem usageWithin_iff_of_observed {bandwidthBps usage : Nat} {before : List LinkSend} {x : LinkSend}
    (h : observedUsage bandwidthBps before x = some usage) :
    UsageWithin bandwidthBps before x ↔ usage ≤ bandwidthBps := by
  simp [UsageWithin, h]

/-! ### Reports of exceeded bandwidth -/

/-- The error says that the link exceeds its bandwidth. -/
def NonFatalError.ExceedsOn (linkId : String) (e : NonFatalError) : Prop :=
  ∃ nodeId id max observed, e = .linkBandwidthExceeded nodeId linkId id max observed

namespace SimulationVerifier
variable {v : SimulationVerifier} {r r' : Replay} {now : Nat} {steps : List SimulationStep} {step : SimulationStep}

/-- A send is replayed with the size that the packet has in the buffer, and reported if the usage is above the bandwidth. -/
theorem packetInTransit_meters {s : PacketInTransit} (h : (v.packetInTransit r now s).result = .ok r') :
    ∃ n packet metadata link link' usage, r.nodes.lookup s.nodeId = some n ∧ n.packets.lookup s.packetId = some packet ∧
      v.linkMetadata.lookup s.linkId = some metadata ∧ r.links.lookup s.linkId = some link ∧
      link.packetSent now packet.sizeBytes metadata.bandwidthBps = some (link', usage) ∧
      r'.links = r.links.insert s.linkId link' ∧
      ∀ linkId, (∃ e ∈ (v.packetInTransit r now s).errors, e.ExceedsOn linkId) ↔
        linkId = s.linkId ∧ metadata.bandwidthBps < usage := by
  have hwithin : (v.packetInTransit r now s).Within (· ∈ (v.packetInTransit r now s).errors) r' := ⟨h, fun e he => he⟩
  obtain ⟨n, packet, n', metadata, link, link', usage, hn, hsent, hmetadata, hsource, hlink, hup, husage, hexceeds, rfl⟩ :=
    packetInTransit_within_iff.1 hwithin
  have hpacket := (ReplayedNode.packetSent_within_iff.1 hsent).2.2.1
  refine ⟨n, packet, metadata, link, link', usage, hn, hpacket, hmetadata, hlink, husage, rfl, fun linkId => ?_⟩
  constructor
  · -- of what is tracked, only the check of the bandwidth is about it
    rintro ⟨e, he, hexceedsOn⟩
    have honly : (v.packetInTransit r now s).Within
        (fun e => ∀ linkId, e.ExceedsOn linkId → linkId = s.linkId ∧ metadata.bandwidthBps < usage) _ :=
      packetInTransit_within_iff.2 ⟨n, packet, n', metadata, link, link', usage, hn,
        ⟨hsent.1, fun e he linkId hexceedsOn => ?_⟩, hmetadata, fun _ linkId => ?_, hlink, fun _ linkId => ?_, husage,
        fun hlt linkId => ?_, rfl⟩
    · exact honly.2 e he linkId hexceedsOn
    · obtain ⟨nodeId, id, max, observed, rfl⟩ := hexceedsOn
      rcases (n.packetSent_ensures s.packetId).errors _ he with ⟨-, heq⟩ | heq <;> simp at heq
    · rintro ⟨nodeId, id, max, observed, heq⟩
      simp at heq
    · rintro ⟨nodeId, id, max, observed, heq⟩
      simp at heq
    · rintro ⟨nodeId, id, max, observed, heq⟩
      exact ⟨(NonFatalError.linkBandwidthExceeded.inj heq).2.1.symm, hlt⟩
  · rintro ⟨rfl, hlt⟩
    exact ⟨_, hexceeds hlt, _, _, _, _, rfl⟩

theorem replay_snoc_exceeds (h : (v.replay v.start (steps ++ [step])).result = .ok r') :
    ∃ r₀ r, (v.replay v.start steps).result = .ok r₀ ∧ UsagesUpdated r₀.nodes r.nodes ∧ r.links = r₀.links ∧
      (v.replayKind r step.relativeTime step.kind).result = .ok r' ∧
      ∀ linkId, (∃ e ∈ (v.replay v.start (steps ++ [step])).errors, e.ExceedsOn linkId) ↔
        (∃ e ∈ (v.replay v.start steps).errors, e.ExceedsOn linkId) ∨
          ∃ e ∈ (v.replayKind r step.relativeTime step.kind).errors, e.ExceedsOn linkId := by
  have hwithin : (v.replay v.start (steps ++ [step])).Within (fun _ => True) r' := ⟨h, fun _ _ => trivial⟩
  obtain ⟨r₀, h₀, hlast⟩ := Tracked.within_fold_append.1 hwithin
  have hstep := Tracked.within_fold_singleton.1 hlast
  obtain ⟨r, hadvance, hkind⟩ := Tracked.exists_of_bind_ok (x := v.advanceTime r₀ step.relativeTime) hstep.1
  have hensures := advanceTime_ensures v r₀ step.relativeTime
  have herrors : ∀ e, e ∈ (v.replay v.start (steps ++ [step])).errors ↔ e ∈ (v.replay v.start steps).errors ∨
      e ∈ (v.advanceTime r₀ step.relativeTime).errors ∨ e ∈ (v.replayKind r step.relativeTime step.kind).errors := by
    intro e
    refine (Tracked.mem_errors_fold_snoc h₀.1).trans (or_congr_right ?_)
    exact Tracked.mem_errors_bind hadvance
  obtain ⟨nodes, update, hnodes, heq⟩ := hensures.result r hadvance
  refine ⟨r₀, r, h₀.1, by rw [heq]; exact hnodes, by rw [heq], hkind, fun linkId => ?_⟩
  constructor
  · rintro ⟨e, he, hexceedsOn⟩
    rcases (herrors e).1 he with he | he | he
    · exact .inl ⟨e, he, hexceedsOn⟩
    · obtain ⟨nodeId, size, usage, rfl⟩ := hensures.errors e he
      obtain ⟨nodeId, id, max, observed, heq⟩ := hexceedsOn
      simp at heq
    · exact .inr ⟨e, he, hexceedsOn⟩
  · rintro (⟨e, he, hexceedsOn⟩ | ⟨e, he, hexceedsOn⟩)
    · exact ⟨e, (herrors e).2 (.inl he), hexceedsOn⟩
    · exact ⟨e, (herrors e).2 (.inr (.inr he)), hexceedsOn⟩

theorem not_exceedsOn_of_other {kind : SimulationStepKind} (hkind : ∀ s, kind ≠ .packetInTransit s) {linkId : String} :
    ¬ ∃ e ∈ (v.replayKind r now kind).errors, e.ExceedsOn linkId := by
  rintro ⟨e, he, nodeId, id, max, observed, heq⟩
  obtain ⟨s, hs⟩ := ((replayKind_nodes v r now kind).errors e he).exceeds nodeId linkId id max observed heq
  exact hkind s hs

/-- The reports of a verified log are those of its replay. -/
theorem reports_exceedsOn_iff {verified : VerifiedSimulation} (h : v.verify = some (.ok verified)) {linkId : String} :
    (∃ e, v.Reports e ∧ e.ExceedsOn linkId) ↔ ∃ e ∈ (v.replay v.start v.steps).errors, e.ExceedsOn linkId := by
  obtain ⟨r', hrun, -⟩ := within_of_verify h
  obtain ⟨r, hreplay, -⟩ := Tracked.exists_of_bind_ok (x := v.replay v.start v.steps) hrun.1
  have herrors : ∀ e, e ∈ v.run.errors ↔ e ∈ (v.replay v.start v.steps).errors ∨ e ∈ (v.finish r).errors := fun e =>
    Tracked.mem_errors_bind hreplay
  constructor
  · rintro ⟨e, hreports, hexceedsOn⟩
    rcases (herrors e).1 (mem_errors_of_reports hreports) with he | he
    · exact ⟨e, he, hexceedsOn⟩
    · obtain ⟨nodeId, size, usage, rfl⟩ := (v.finish_ensures r).errors e he
      obtain ⟨nodeId, id, max, observed, heq⟩ := hexceedsOn
      simp at heq
  · rintro ⟨e, he, hexceedsOn⟩
    refine ⟨e, ?_, hexceedsOn⟩
    rw [Reports, h]
    exact hrun.2 e ((herrors e).2 (.inl he))

end SimulationVerifier

/-! ### Runs -/

/-- The send, in the time of the log. -/
def LinkSend.relativeTo (simulationStart : Nat) (x : LinkSend) : LinkSend := { x with time := x.time - simulationStart }

section
variable {simulationStart bandwidthBps : Nat} {sends : List LinkSend} {x : LinkSend}

theorem idleCapacity_relativeTo (window : Nat) {now : Nat} (hnow : simulationStart ≤ now)
    (hstart : ∀ x ∈ sends, simulationStart ≤ x.time) :
    idleCapacity bandwidthBps window (now - simulationStart) (sends.map (·.relativeTo simulationStart)) =
      idleCapacity bandwidthBps window now sends := by
  induction sends generalizing window now with
  | nil => rfl
  | cons x earlier ih =>
    have hx := hstart x (List.mem_cons_self ..)
    have hgap : now - simulationStart - (x.relativeTo simulationStart).time = now - x.time := by
      simp only [LinkSend.relativeTo]
      omega
    have hih := ih (window - (now - x.time)) hx fun y hy => hstart y (List.mem_cons_of_mem _ hy)
    rw [List.map_cons, idleCapacity, idleCapacity, hgap]
    exact congrArg (fun rest => if window < now - x.time then _ else _ + rest) hih

theorem fitsIdle_relativeTo (hx : simulationStart ≤ x.time) (hstart : ∀ x ∈ sends, simulationStart ≤ x.time) :
    FitsIdle bandwidthBps (sends.map (·.relativeTo simulationStart)) (x.relativeTo simulationStart) ↔
      FitsIdle bandwidthBps sends x := by
  rw [FitsIdle, FitsIdle, ← List.map_reverse]
  show _ < idleCapacity bandwidthBps _ (x.time - simulationStart) _ + _ ↔ _
  rw [idleCapacity_relativeTo _ hx fun y hy => hstart y (List.mem_reverse.1 hy)]
  rfl

/-- Whether a pacer can send depends on the time since the last send. -/
theorem pacedSend_relativeTo (hx : simulationStart ≤ x.time) (hstart : ∀ x ∈ sends, simulationStart ≤ x.time)
    (h : PacedSend bandwidthBps sends x) :
    PacedSend bandwidthBps (sends.map (·.relativeTo simulationStart)) (x.relativeTo simulationStart) := by
  rcases List.eq_nil_or_concat sends with rfl | ⟨init, last, rfl⟩
  · exact h
  · rw [List.concat_eq_append] at h hstart ⊢
    have hlast := canSend_snoc_iff.1 h
    have hle := hstart last (by simp)
    rw [List.map_append, List.map_singleton]
    refine canSend_snoc_iff.2 ?_
    show last.time - simulationStart + Duration.fromMillis (PacketPacer.sendDurationMs last.bits bandwidthBps) ≤
      x.time - simulationStart
    omega

theorem along_relativeTo (hstart : ∀ x ∈ sends, simulationStart ≤ x.time) :
    (Along (FitsIdle bandwidthBps) (sends.map (·.relativeTo simulationStart)) ↔ Along (FitsIdle bandwidthBps) sends) ∧
      (Along (PacedSend bandwidthBps) sends →
        Along (PacedSend bandwidthBps) (sends.map (·.relativeTo simulationStart))) := by
  induction sends using List.reverseRecOn with
  | nil => exact ⟨Iff.rfl, fun h => h⟩
  | append_singleton sends x ih =>
    have hbefore : ∀ y ∈ sends, simulationStart ≤ y.time := fun y hy => hstart y (List.mem_append_left _ hy)
    have hx : simulationStart ≤ x.time := hstart x (by simp)
    obtain ⟨hfits, hpaced⟩ := ih hbefore
    rw [List.map_append, List.map_singleton, along_snoc, along_snoc, along_snoc, along_snoc, hfits,
      fitsIdle_relativeTo hx hbefore]
    exact ⟨Iff.rfl, fun h => ⟨hpaced h.1, pacedSend_relativeTo hx hbefore h.2⟩⟩

end

/-- The sends of the link, in the time of the log. -/
def State.relativeSends (net : InMemoryNetwork) (s : State) (j : LinkIx) : List LinkSend :=
  (s.linkSends j).map (·.relativeTo net.simulationStart)

theorem LinkEffect.recordsSend {net : InMemoryNetwork} {s s' : State} {j : LinkIx} (h : LinkEffect net j s s') :
    (∃ p s₁ m, Picks j s p s₁ m ∧ s.handled p.stay = false ∧
        s'.log = s.log ++ [⟨s.now - net.simulationStart,
          .packetInTransit ⟨p.data.id, (net.node p.srcNode).id, (net.link j).id⟩⟩] ∧
        ∀ j', s'.linkSends j' = s.linkSends j' ++ if j' = j then [⟨s.now, p.data.packetSize⟩] else []) ∨
      Logs net (fun kind => ∀ p, kind ≠ .packetInTransit p) s s' ∧ ∀ j', s'.linkSends j' = s.linkSends j' := by
  have hunsent : ∀ {t : State}, (t.history = s.history ∨ ∃ o : Observation, o.isSent = false ∧
      t.history = s.history ++ [o]) → ∀ j', t.linkSends j' = s.linkSends j' := fun hobserves j' => by
    rw [State.linkSends, State.linkSends, State.sentOn_of_observes hobserves]
  cases h with
  | park p s₁ task hp =>
    obtain ⟨queue, rfl⟩ := hp.eq_dequeue
    exact .inr ⟨.same rfl, hunsent (.inl rfl)⟩
  | discard p p' s₁ hp hhandled =>
    obtain ⟨queue, rfl⟩ := hp.eq_dequeue
    exact .inr ⟨.same rfl, hunsent (.inr ⟨.discarded j p', rfl, rfl⟩)⟩
  | clear p p' s₁ hp hun hcleared =>
    obtain ⟨queue, rfl⟩ := hp.eq_dequeue
    exact .inr ⟨.step _ (by simp) rfl, hunsent (.inr ⟨.cleared j p', rfl, rfl⟩)⟩
  | panicSend p p' s₁ hp hun hcleared hpanic =>
    obtain ⟨queue, rfl⟩ := hp.eq_dequeue
    exact .inr ⟨.same rfl, hunsent (.inr ⟨.sendPanicked j p', rfl, rfl⟩)⟩
  | send p p' s₁ data slot hp hun hcleared hsane hdata =>
    have hpick := hp
    obtain ⟨links, rfl⟩ := hp.ready
    obtain ⟨queue, rfl⟩ := hp.eq_dequeue
    have hid : data.id = p.data.id := id_applyCongestion hdata
    have hsize : data.packetSize = p.data.packetSize := packetSize_applyCongestion hdata
    refine .inl ⟨p, _, _, hpick, hun, by rw [← hid]; rfl, fun j' => ?_⟩
    have hsent : State.sentOn ((((s.dequeue j queue).setHandled p.stay).transmit net j
          { p with preferredLinks := links, data } slot).setLinkTask j .next) j' =
        s.sentOn j' ++ if j' = j then [(s.now, { p with preferredLinks := links, data })] else [] :=
      State.sentOn_snoc rfl j'
    show State.linkSends _ j' = _
    rw [State.linkSends, hsent, List.map_append, State.linkSends]
    split_ifs <;> simp [hsize]

/-- What the verifier has at the end of a replay of the link's sends. -/
structure Metered (net : InMemoryNetwork) (v : SimulationVerifier) (s : State) (r : Replay) (j : LinkIx) : Prop where
  window : ∀ l, r.links.lookup (net.link j).id = some l →
    l.Meters (net.link j).bandwidthBps (s.relativeSends net j)
  exceeds : (∃ e ∈ (v.replay v.start s.log).errors, e.ExceedsOn (net.link j).id) ↔
    ¬ Along (UsageWithin (net.link j).bandwidthBps) (s.relativeSends net j)

/-- The verifier has the windows of the links' sends, and has reported the sends above the bandwidth. -/
structure MeterInv (net : InMemoryNetwork) (v : SimulationVerifier) (s : State) : Prop where
  started : net.simulationStart ≤ s.now
  sends : ∀ j, ∀ x ∈ s.linkSends j, net.simulationStart ≤ x.time
  metered : ∀ r, (v.replay v.start s.log).result = .ok r → ∀ j < net.links.length, Metered net v s r j

namespace MeterInv
variable {net : InMemoryNetwork} {v : SimulationVerifier} {s s' : State} {spec : NetworkSpec} {steps : List SimulationStep}
  {K : SimulationStepKind → Prop} {P : NonFatalError → Prop} {j : LinkIx}

theorem quiet (hv : v.Tables spec steps) (h : MeterInv net v s) (hlogs : Logs net K s s')
    (hK : ∀ kind, K kind → ∀ p, kind ≠ .packetInTransit p) (hsends : ∀ j, s'.linkSends j = s.linkSends j)
    (hnow : s.now ≤ s'.now) : MeterInv net v s' := by
  have hrelative : ∀ j, s'.relativeSends net j = s.relativeSends net j := fun j => by
    rw [State.relativeSends, hsends]
    rfl
  refine ⟨h.started.trans hnow, fun j x hx => h.sends j x (hsends j ▸ hx), fun r' hr' j hj => ?_⟩
  cases hlogs with
  | same hlog =>
    rw [hlog] at hr'
    obtain ⟨hwindow, hexceeds⟩ := h.metered r' hr' j hj
    exact ⟨fun l hl => hrelative j ▸ hwindow l hl, by rw [hlog, hrelative]; exact hexceeds⟩
  | step kind hkind hlog =>
    rw [hlog] at hr'
    obtain ⟨r₀, r, h₀, hnodes, hlinks, hreplayed, hiff⟩ := SimulationVerifier.replay_snoc_exceeds hr'
    obtain ⟨hwindow, hexceeds⟩ := h.metered r₀ h₀ j hj
    have hsound : ∀ id l, r.links.lookup id = some l → l.Sound := fun id l hl =>
      (SimulationVerifier.link_history (P := fun _ => True) hv.new_link ⟨h₀, fun _ _ => trivial⟩ id l (hlinks ▸ hl)).sound
    constructor
    · intro l' hl'
      obtain ⟨l, hl, hvisit⟩ := SimulationVerifier.replayKind_links (P := fun _ => True) hsound
        ⟨hreplayed, fun _ _ => trivial⟩ hl'
      obtain ⟨l₀, hl₀, heq⟩ := hwindow l (hlinks ▸ hl)
      obtain ⟨hpackets, husage, hpeak⟩ := hvisit.window fun p hp => absurd hp (hK kind hkind p)
      refine ⟨l₀, hrelative j ▸ hl₀, Eq.trans ?_ heq⟩
      rw [ReplayedLink.window, hpackets, husage, hpeak, ReplayedLink.window]
    · rw [hlog, hiff, hexceeds, hrelative]
      exact or_iff_left (SimulationVerifier.not_exceedsOn_of_other (hK kind hkind))

theorem send (hk : v.Knows net) (h : MeterInv net v s) (hj : j < net.links.length)
    (hbandwidth : ∀ m, v.linkMetadata.lookup (net.link j).id = some m → m.bandwidthBps = (net.link j).bandwidthBps)
    (hacc : Accounted net v P ⟨[], s⟩) (hstays : StaysInv net s) {p : OutgoingPacket} {s₁ : State} {m : State.Move}
    (hp : Picks j s p s₁ m) (hun : s.handled p.stay = false) (hnow : s'.now = s.now)
    (hlog : s'.log = s.log ++ [⟨s.now - net.simulationStart,
      .packetInTransit ⟨p.data.id, (net.node p.srcNode).id, (net.link j).id⟩⟩])
    (hsends : ∀ j', s'.linkSends j' = s.linkSends j' ++ if j' = j then [⟨s.now, p.data.packetSize⟩] else []) :
    MeterInv net v s' := by
  refine ⟨hnow ▸ h.started, fun j' x hx => ?_, fun r' hr' j' hj' => ?_⟩
  · rw [hsends] at hx
    rcases List.mem_append.1 hx with hx | hx
    · exact h.sends j' x hx
    · split_ifs at hx
      · obtain rfl := List.mem_singleton.1 hx
        exact h.started
      · simp at hx
  · rw [hlog] at hr'
    obtain ⟨r₀, r, h₀, hnodes, hlinks, hreplayed, hiff⟩ := SimulationVerifier.replay_snoc_exceeds hr'
    obtain ⟨n, packet, metadata, link, link', usage, hn, hpacket, hmetadata, hlink, husage, hinsert, herrors⟩ :=
      SimulationVerifier.packetInTransit_meters hreplayed
    -- the size in the buffer of the replay is that of the packet
    have hsize : packet.sizeBytes = p.data.packetSize := by
      obtain ⟨w, hw, r₁, hr₁, hmirror⟩ := hacc
      obtain rfl := Except.ok.inj (h₀.symm.trans hr₁.1)
      have htoken : w.tokens net p.data.id = some (.buffered (net.node p.srcNode).id
          ⟨p.inNodeSince - net.simulationStart, p.data.packetSize, 0⟩) := by
        rw [Whereabouts.tokens, (hw.picked hstays hp hun).2]
        rfl
      obtain ⟨n₀, hn₀, hpacket₀⟩ := (hmirror.has _ _).2 htoken
      obtain ⟨n₁, usage₁, hn₁, rfl⟩ := hnodes.origin hn
      obtain rfl := Option.some.inj (hn₀.symm.trans hn₁)
      rw [Option.some.inj (hpacket.symm.trans hpacket₀)]
    have hold := h.metered r₀ h₀ j' hj'
    by_cases hjj : j' = j
    · subst hjj
      have hrelative : s'.relativeSends net j' =
          s.relativeSends net j' ++ [⟨s.now - net.simulationStart, p.data.packetSize⟩] := by
        simp [State.relativeSends, hsends, LinkSend.relativeTo]
      rw [hbandwidth metadata hmetadata, hsize] at husage
      obtain ⟨hmeters, hobserved⟩ := (hold.window link (hlinks ▸ hlink)).packetSent
        (x := ⟨s.now - net.simulationStart, p.data.packetSize⟩) husage
      constructor
      · intro l hl
        rw [hinsert, AList.lookup_insert] at hl
        obtain rfl := Option.some.inj hl
        exact hrelative ▸ hmeters
      · rw [hlog, hiff, hrelative, along_snoc, usageWithin_iff_of_observed hobserved, not_and_or, hold.exceeds, Nat.not_le]
        refine or_congr_right ((herrors _).trans ?_)
        rw [hbandwidth metadata hmetadata]
        exact and_iff_right rfl
    · have hid : (net.link j').id ≠ (net.link j).id := fun heq => hjj (hk.linkIds j' hj' j hj heq)
      have hrelative : s'.relativeSends net j' = s.relativeSends net j' := by
        simp [State.relativeSends, hsends, hjj]
      constructor
      · intro l hl
        rw [hinsert, AList.lookup_insert_ne hid, hlinks] at hl
        exact hrelative ▸ hold.window l hl
      · rw [hlog, hiff, hrelative, hold.exceeds]
        exact or_iff_left fun hnew => hid ((herrors _).1 hnew).1

theorem linkEffect (hk : v.Knows net) (hv : v.Tables spec steps)
    (hbandwidth : ∀ j < net.links.length, ∀ m, v.linkMetadata.lookup (net.link j).id = some m →
      m.bandwidthBps = (net.link j).bandwidthBps) (h : MeterInv net v s) (hj : j < net.links.length)
    (hacc : Accounted net v P ⟨[], s⟩) (hstays : StaysInv net s) (he : LinkEffect net j s s') : MeterInv net v s' := by
  rcases he.recordsSend with ⟨p, s₁, m, hp, hun, hlog, hsends⟩ | ⟨hlogs, hsends⟩
  · exact h.send hk hj (hbandwidth j hj) hacc hstays hp hun he.frame.now hlog hsends
  · exact h.quiet hv hlogs (fun _ hkind => hkind) hsends he.frame.now.ge

theorem event (hv : v.Tables spec steps) (h : MeterInv net v s) (hf : State.EventFrame s s') (hlogs : Logs net K s s')
    (hK : ∀ kind, K kind → ∀ p, kind ≠ .packetInTransit p) : MeterInv net v s' :=
  h.quiet hv hlogs hK (fun j => by rw [State.linkSends, State.linkSends, State.sentOn_of_observes (.inl hf.history)]) hf.now.ge

theorem initial (hv : v.Tables spec steps) (now : Nat) (events : List NetworkEvent) (hnow : net.simulationStart ≤ now) :
    MeterInv net v (net.initialState now events) := by
  refine ⟨hnow, fun j x hx => by simp [State.linkSends, State.sentOn, InMemoryNetwork.initialState] at hx,
    fun r hr j hj => ⟨fun l hl => ?_, ?_⟩⟩
  · obtain rfl := Except.ok.inj hr
    obtain ⟨-, rfl⟩ := (hv.links _ _).1 hl
    exact ⟨{}, rfl, rfl⟩
  · refine iff_of_false ?_ (not_not.2 along_nil)
    rintro ⟨e, he, -⟩
    simp [InMemoryNetwork.initialState, SimulationVerifier.replay] at he

end MeterInv

theorem SimulationVerifier.bandwidthBps_of_tables {spec : NetworkSpec} {net : InMemoryNetwork} {steps : List SimulationStep}
    {v : SimulationVerifier} (hnet : net.Tables spec) (hv : v.Tables spec steps) {j : LinkIx} (hj : j < net.links.length)
    {m : LinkMetadata} (hm : v.linkMetadata.lookup (net.link j).id = some m) :
    m.bandwidthBps = (net.link j).bandwidthBps := by
  have hmem : net.link j ∈ spec.links := by
    rw [← hnet.links, InMemoryNetwork.link, List.getD_eq_getElem?_getD, List.getElem?_eq_getElem hj, Option.getD_some]
    exact List.getElem_mem hj
  obtain ⟨m', hm', -, hbandwidth, -⟩ := hv.linkMetadata hnet.linkIds (net.link j) hmem
  rw [Option.some.inj (hm.symm.trans hm'), hbandwidth]

section
variable {spec : NetworkSpec} {events : List NetworkEvent} {net : InMemoryNetwork} {s : State} {order : List String}
  {v : SimulationVerifier} {disableTimeWarping : Bool}

theorem Reaches.meterInv (h : Reaches disableTimeWarping spec events net s)
    (hnew : SimulationVerifier.new order s.log spec = .ok v) (hgen : s.generated.Nodup) (hclears : ClearsUnique net s.log) :
    MeterInv net v s := by
  have htables := h.tables
  have hv := SimulationVerifier.new_tables hnew
  have hk : v.Knows net := SimulationVerifier.knows_of_tables htables hv
  have hbandwidth : ∀ j < net.links.length, ∀ m, v.linkMetadata.lookup (net.link j).id = some m →
      m.bandwidthBps = (net.link j).bandwidthBps := fun j hj m hm =>
    SimulationVerifier.bandwidthBps_of_tables htables hv hj hm
  have hreplay := ReplayInv.preserved hk htables
  have hother : ∀ kind : SimulationStepKind, kind.isForwarding → ∀ p, kind ≠ .packetInTransit p := by
    rintro kind hkind p rfl
    simp [SimulationStepKind.isForwarding] at hkind
  have hpreserved : Preserved net fun σ => ReplayInv net v (MayReport net) σ ∧
      (σ.state.generated.Nodup → ClearsUnique net σ.state.log → MeterInv net v σ.state) :=
    { effect := fun σ σ' he hσ => ⟨hreplay.effect σ σ' he hσ.1, fun hgen hclears =>
        (hσ.2 (hgen.sublist he.generated.sublist) (hclears.of_prefix he.logs.grows)).quiet hv he.logs hother
          (fun j => by rw [State.linkSends, State.linkSends, State.sentOn_of_observes he.observes]) he.linkFrame.now⟩
      link := fun j s s' hj he hs => ⟨hreplay.link j s s' hj he hs.1, fun hgen hclears => by
        have hgen₀ : s.generated.Nodup := he.generated ▸ hgen
        have hclears₀ := hclears.of_prefix he.logs.grows
        exact (hs.2 hgen₀ hclears₀).linkEffect hk hv hbandwidth hj (hs.1.accounted hgen₀ hclears₀) hs.1.stays he⟩
      linkEvent := fun s event hs => ⟨hreplay.linkEvent s event hs.1, fun hgen hclears => by
        have hlogs := s.linkEvent_logs net event
        have hf := s.processLinkEvent_frame net event
        exact (hs.2 (hf.generated ▸ hgen) (hclears.of_prefix hlogs.grows)).event hv hf hlogs (by rintro _ ⟨rfl, -⟩ p; simp)⟩
      nodeEvent := fun s event hs => ⟨hreplay.nodeEvent s event hs.1, fun hgen hclears => by
        have hlogs := s.nodeEvent_logs net event
        have hf := s.processNodeEvent_frame net event
        exact (hs.2 (hf.generated ▸ hgen) (hclears.of_prefix hlogs.grows)).event hv hf hlogs (by rintro _ ⟨rfl, -⟩ p; simp)⟩
      events := fun s events hs => ⟨hreplay.events s events hs.1, fun hgen hclears =>
        (hs.2 hgen hclears).quiet (K := fun _ => False) hv (.same rfl) (by simp) (fun _ => rfl) (Nat.le_refl _)⟩ }
  exact (hpreserved.reaches (fun now events hnow =>
    ⟨.initial htables hv now events hnow, fun _ _ => .initial hv now events hnow⟩) h).2 hgen hclears

/-- The verifier reports that a link of a run exceeds its bandwidth exactly if the check of one of its sends does. -/
theorem Reaches.reports_exceedsOn_iff (h : Reaches disableTimeWarping spec events net s) (hgen : s.generated.Nodup)
    (hclears : ClearsUnique net s.log) (hnew : SimulationVerifier.new order s.log spec = .ok v) {j : LinkIx}
    (hj : j < net.links.length) : (∃ e, v.Reports e ∧ e.ExceedsOn (net.link j).id) ↔
      ¬ Along (UsageWithin (net.link j).bandwidthBps) (s.relativeSends net j) := by
  obtain ⟨verified, hverify, -⟩ :=
    (h.replayInv hnew).verify h.logInv (MayReport.allows net) hnew hgen hclears
  have hsteps : v.steps = s.log := (SimulationVerifier.new_tables hnew).steps.trans h.logInv.insertionSort_eq
  obtain ⟨r', hrun, -⟩ := SimulationVerifier.within_of_verify hverify
  obtain ⟨r, hreplay, -⟩ := Tracked.exists_of_bind_ok (x := v.replay v.start v.steps) hrun.1
  rw [SimulationVerifier.reports_exceedsOn_iff hverify, hsteps]
  exact ((h.meterInv hnew hgen hclears).metered r (hsteps ▸ hreplay) j hj).exceeds

end

/-! ### Results -/

/-- Take a bandwidth. For all sends that the pacer allows, the verifier never finds it exceeded exactly if every packet could
have been sent while the link was idle in the window before it. So the verifier reports that a link of a run, with this
bandwidth, exceeds it exactly if some packet sent on the link could not. -/
theorem usageWithin_iff_fitsIdle {bandwidthBps : Nat} (hB : 0 < bandwidthBps) :
    (∀ sends : List LinkSend, Along (PacedSend bandwidthBps) sends →
      (Along (UsageWithin bandwidthBps) sends ↔ Along (FitsIdle bandwidthBps) sends)) ∧
    ∀ (disableTimeWarping : Bool) (spec : NetworkSpec) (events : List NetworkEvent) (net : InMemoryNetwork) (s : State)
        (order : List String) (v : SimulationVerifier), Reaches disableTimeWarping spec events net s →
      s.generated.Nodup → ClearsUnique net s.log → SimulationVerifier.new order s.log spec = .ok v →
      ∀ j < net.links.length, (net.link j).bandwidthBps = bandwidthBps →
        ((∃ nodeId id max observed, v.Reports (.linkBandwidthExceeded nodeId (net.link j).id id max observed)) ↔
          ¬ Along (FitsIdle bandwidthBps) (s.linkSends j)) := by
  refine ⟨fun sends hpaced => along_usageWithin_iff hB hpaced, ?_⟩
  rintro disableTimeWarping spec events net s order v hreach hgen hclears hnew j hj rfl
  have hstart := (hreach.meterInv hnew hgen hclears).sends j
  have hpaced := (hreach.pacerInv j).2
  have hreports : (∃ nodeId id max observed, v.Reports (.linkBandwidthExceeded nodeId (net.link j).id id max observed)) ↔
      ∃ e, v.Reports e ∧ e.ExceedsOn (net.link j).id := by
    constructor
    · rintro ⟨nodeId, id, max, observed, h⟩
      exact ⟨_, h, nodeId, id, max, observed, rfl⟩
    · rintro ⟨e, h, nodeId, id, max, observed, rfl⟩
      exact ⟨nodeId, id, max, observed, h⟩
  rw [hreports, hreach.reports_exceedsOn_iff hgen hclears hnew hj, State.relativeSends,
    along_usageWithin_iff hB ((along_relativeTo hstart).2 hpaced), (along_relativeTo hstart).1]

/-- Packets of 9984 bits on a link of 9984 bps: the second one is sent after a second, when the first one is
sent completely. The verifier finds twice the bandwidth used. -/
theorem usage_of_saturated_link :
    Along (PacedSend 9984) [⟨0, 1248⟩, ⟨1000000000, 1248⟩] ∧
      observedUsage 9984 [⟨0, 1248⟩] ⟨1000000000, 1248⟩ = some 19968 ∧
      ¬ Along (UsageWithin 9984) [⟨0, 1248⟩, ⟨1000000000, 1248⟩] := by
  have hpaced : Along (PacedSend 9984) ([] ++ [⟨0, 1248⟩] ++ [⟨1000000000, 1248⟩]) :=
    along_snoc.2 ⟨along_snoc.2 ⟨along_nil, by unfold PacedSend; decide⟩, by unfold PacedSend; decide +kernel⟩
  have husage : observedUsage 9984 [⟨0, 1248⟩] ⟨1000000000, 1248⟩ = some 19968 := by decide +kernel
  refine ⟨hpaced, husage, fun h => ?_⟩
  obtain ⟨usage, heq, hle⟩ := (along_snoc (l := [(⟨0, 1248⟩ : LinkSend)]).1 h).2
  rw [husage] at heq
  obtain rfl := Option.some.inj heq
  omega

/-- Packets of 9984 bits on a link of 9984 bps fit with a pause of a second between them; a link of 100 bps is reported
with its first packet, of 1024 bits. -/
theorem usageWithin_after_pause : Along (UsageWithin 9984) [⟨0, 1248⟩, ⟨2000000000, 1248⟩] ∧
    ∃ net s v, Reaches false (hostPair 100 0) [] net s ∧ s.linkSends 0 = [⟨0, 128⟩] ∧
      SimulationVerifier.new ["A", "B"] s.log (hostPair 100 0) = .ok v ∧
      ∃ nodeId id max observed, v.Reports (.linkBandwidthExceeded nodeId (net.link 0).id id max observed) := by
  constructor
  · have hpaced : Along (PacedSend 9984) ([] ++ [⟨0, 1248⟩] ++ [⟨2000000000, 1248⟩]) :=
      along_snoc.2 ⟨along_snoc.2 ⟨along_nil, by unfold PacedSend; decide⟩, by unfold PacedSend; decide +kernel⟩
    have hfits : Along (FitsIdle 9984) ([] ++ [⟨0, 1248⟩] ++ [⟨2000000000, 1248⟩]) :=
      along_snoc.2 ⟨along_snoc.2 ⟨along_nil, by unfold FitsIdle; decide +kernel⟩, by unfold FitsIdle; decide +kernel⟩
    exact ((usageWithin_iff_fitsIdle (by decide)).1 _ hpaced).2 hfits
  · obtain ⟨net, s, hreach, hs⟩ := exists_reaches_of_simulate (hostPair 100 0) [] (HostPair.sendFromA 1 ++ [.linkTask 0 0])
      (fun net s => decide (s.linkSends 0 = [⟨0, 128⟩]) && decide ((net.link 0).bandwidthBps = 100 ∧ 0 < net.links.length) &&
        decide s.generated.Nodup && (SimulationVerifier.new ["A", "B"] s.log (hostPair 100 0)).isOk)
      (by decide +kernel)
    simp only [Bool.and_eq_true, decide_eq_true_eq] at hs
    obtain ⟨⟨⟨hsent, hB, hlink⟩, hgen⟩, hok⟩ := hs
    obtain ⟨v, hnew⟩ := Except.isOk_iff.1 hok
    have hunique := hreach.tables.idUnique (by decide)
    refine ⟨net, s, v, hreach, hsent, hnew, ?_⟩
    refine ((usageWithin_iff_fitsIdle (by decide)).2 _ _ _ net s _ v hreach hgen (fun _ _ _ _ _ _ _ => hunique _) hnew 0
      hlink hB).2 fun hfits => ?_
    rw [hsent] at hfits
    have hfirst : FitsIdle 100 [] ⟨0, 128⟩ := (along_snoc (l := []).1 hfits).2
    exact absurd hfirst (by unfold FitsIdle; decide +kernel)

end QuicWorkbench
