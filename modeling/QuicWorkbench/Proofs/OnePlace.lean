import QuicWorkbench.Lib.Along
import QuicWorkbench.Lib.Tokens
import QuicWorkbench.Proofs.Handlers
import QuicWorkbench.Proofs.Replay
import QuicWorkbench.Proofs.Simulate
import QuicWorkbench.Proofs.Tables

/-!
# Packets are not conjured or cloned

The replayed packets are tokens, held in the buffers of nodes or in flight, and every step that is replayed
without an error moves them. The handlers look at the buffer of one node only when a packet is created or
duplicated, so a packet that is held elsewhere passes: no packet is cloned exactly if the log introduces every
id once.
-/

namespace QuicWorkbench

/-- Where the replay holds a packet. -/
inductive Holder
  | buffer (nodeId : String)
  | flight
  deriving DecidableEq

namespace Replay

/-- The replayed state holds the packet. -/
def Holds (r : Replay) (id : Uuid) : Holder → Prop
  | .buffer nodeId => ∃ n, r.nodes.lookup nodeId = some n ∧ (n.packets.lookup id).isSome
  | .flight => (r.inFlightPackets.lookup id).isSome

/-- The id that the step brings into existence: of a packet that does not come off a link, or of a duplicate. -/
def introduced (r : Replay) : SimulationStepKind → Option Uuid
  | .packetInNode s => if (r.inFlightPackets.lookup s.packetId).isSome then none else some s.packetId
  | .packetDuplicated s => some s.packetId
  | _ => none

variable {r r' : Replay} {nodeId : String} {n n' : ReplayedNode} {id : Uuid}

theorem holds_insert (hn : r.nodes.lookup nodeId = some n) (hr' : r'.nodes = r.nodes.insert nodeId n')
    (hflight : r'.inFlightPackets = r.inFlightPackets) {u : Uuid} {m : Holder} :
    r'.Holds u m ↔ if m = .buffer nodeId then (n'.packets.lookup u).isSome = true else r.Holds u m := by
  cases m with
  | flight => simp [Holds, hflight]
  | buffer a =>
    by_cases ha : a = nodeId
    · subst ha
      simp [Holds, hr']
    · simp [Holds, hr', ha, AList.lookup_insert_ne ha]

theorem holds_of_lookup (hn : r.nodes.lookup nodeId = some n) {u : Uuid} :
    r.Holds u (.buffer nodeId) ↔ (n.packets.lookup u).isSome := by
  simp [Holds, hn]

theorem isSome_lookup_erase {V : Type} {m : HashMap Uuid V} {id u : Uuid} :
    ((m.erase id).lookup u).isSome ↔ (m.lookup u).isSome ∧ u ≠ id := by
  by_cases h : u = id
  · subst h
    simp
  · simp [h, AList.lookup_erase_ne h]

theorem move_create (hn : r.nodes.lookup nodeId = some n) (hr' : r'.nodes = r.nodes.insert nodeId n')
    (hflight : r'.inFlightPackets = r.inFlightPackets) {p : ReplayedPacket} (hn' : n'.packets = n.packets.insert id p) :
    TokenMove r.Holds r'.Holds (some id) := by
  refine .create id (.buffer nodeId) fun u m => ?_
  rw [holds_insert hn hr' hflight]
  split_ifs with hm
  · subst hm
    rw [hn', isSome_lookup_insert, holds_of_lookup hn]
    simp
  · simp [hm]

theorem move_remove (hn : r.nodes.lookup nodeId = some n) (hr' : r'.nodes = r.nodes.insert nodeId n')
    (hflight : r'.inFlightPackets = r.inFlightPackets) (hid : (n.packets.lookup id).isSome)
    (hn' : n'.packets = n.packets.erase id) : TokenMove r.Holds r'.Holds none := by
  refine .remove id (.buffer nodeId) ((holds_of_lookup hn).2 hid) fun u m => ?_
  rw [holds_insert hn hr' hflight]
  split_ifs with hm
  · subst hm
    rw [hn', isSome_lookup_erase, holds_of_lookup hn]
    simp
  · simp [hm]

theorem move_stay (hn : r.nodes.lookup nodeId = some n) (hr' : r'.nodes = r.nodes.insert nodeId n')
    (hflight : r'.inFlightPackets = r.inFlightPackets)
    (hn' : ∀ u, (n'.packets.lookup u).isSome = (n.packets.lookup u).isSome) : TokenMove r.Holds r'.Holds none := by
  refine .stay fun u m => ?_
  rw [holds_insert hn hr' hflight]
  split_ifs with hm
  · subst hm
    rw [hn', holds_of_lookup hn]
  · rfl

end Replay

namespace SimulationVerifier
open Replay
variable {v : SimulationVerifier} {r r' : Replay} {now : Nat} {P : NonFatalError → Prop}

theorem packetInNode_moves {s : PacketInNode} (h : (v.packetInNode r now s).Within P r') :
    TokenMove r.Holds r'.Holds (r.introduced (.packetInNode s)) := by
  cases hf : r.inFlightPackets.lookup s.packetId with
  | some f =>
    obtain ⟨metadata, link, n, n', -, -, -, -, -, -, hn, hreceived, rfl⟩ := (packetInNode_within_iff_of_inFlight hf).1 h
    have hflight : r.Holds s.packetId .flight := by simp [Holds, hf]
    have hnone : r.introduced (.packetInNode s) = none := by simp [introduced, hf]
    rw [hnone]
    rw [ReplayedNode.packetReceived_within_iff] at hreceived
    split_ifs at hreceived with hdropped
    · -- dropped on arrival
      obtain ⟨-, rfl⟩ := hreceived
      refine .remove s.packetId .flight hflight fun u m => ?_
      cases m with
      | flight => simp [Holds, isSome_lookup_erase]
      | buffer a =>
        by_cases ha : a = s.nodeId
        · subst ha
          simp [Holds, hn, ReplayedNode.trackReceived]
        · simp [Holds, AList.lookup_insert_ne ha]
    · obtain ⟨-, -, rfl⟩ := ReplayedNode.addPacketToBuffer_within_iff.1 hreceived
      refine .take s.packetId .flight (.buffer s.nodeId) hflight fun u m => ?_
      cases m with
      | flight => simp [Holds, isSome_lookup_erase]
      | buffer a =>
        by_cases ha : a = s.nodeId
        · subst ha
          simp [Holds, hn, ReplayedNode.trackReceived, isSome_lookup_insert]
        · simp [Holds, AList.lookup_insert_ne ha, ha]
  | none =>
    obtain ⟨n, n', -, hn, hadded, rfl⟩ := (packetInNode_within_iff_of_created hf).1 h
    obtain ⟨-, -, rfl⟩ := ReplayedNode.addPacketToBuffer_within_iff.1 hadded
    have hsome : r.introduced (.packetInNode s) = some s.packetId := by simp [introduced, hf]
    rw [hsome]
    exact move_create hn rfl rfl rfl

theorem packetInTransit_moves {s : PacketInTransit} (h : (v.packetInTransit r now s).Within P r') :
    TokenMove r.Holds r'.Holds none := by
  obtain ⟨n, packet, n', metadata, link, link', usage, hn, hsent, -, -, -, -, -, -, rfl⟩ := packetInTransit_within_iff.1 h
  obtain ⟨-, -, hp, -, rfl⟩ := ReplayedNode.packetSent_within_iff.1 hsent
  refine .take s.packetId (.buffer s.nodeId) .flight ((holds_of_lookup hn).2 (by simp [hp])) fun u m => ?_
  cases m with
  | flight => simp [Holds, isSome_lookup_insert]
  | buffer a =>
    by_cases ha : a = s.nodeId
    · subst ha
      simp [Holds, hn, isSome_lookup_erase]
    · simp [Holds, AList.lookup_insert_ne ha, ha]

theorem packetLostInTransit_moves {s : PacketLostInTransit} (h : (packetLostInTransit r s).Within P r') :
    TokenMove r.Holds r'.Holds none := by
  rw [packetLostInTransit_within_iff] at h
  cases hf : r.inFlightPackets.lookup s.packetId with
  | some f =>
    simp only [hf] at h
    subst h
    refine .remove s.packetId .flight (by simp [Holds, hf]) fun u m => ?_
    cases m with
    | flight => simp [Holds, isSome_lookup_erase]
    | buffer a => simp [Holds]
  | none =>
    simp only [hf] at h
    rw [h.2]
    exact .stay fun _ _ => Iff.rfl

theorem networkEvent_moves {e : NetworkEventStep} (h : (networkEvent r now e).Within P r') :
    TokenMove r.Holds r'.Holds none := by
  obtain ⟨links, ⟨-, rfl⟩ | ⟨payload, n, -, hn, rfl⟩⟩ := exists_of_networkEvent h
  · exact .stay fun u m => by cases m <;> rfl
  · refine move_stay hn rfl rfl fun u => ?_
    obtain ⟨lastDown, heq⟩ := n.handleEvent_eq payload now
    rw [heq]

theorem replayKind_moves {kind : SimulationStepKind} (h : (v.replayKind r now kind).Within P r') :
    TokenMove r.Holds r'.Holds (r.introduced kind) := by
  cases kind with
  | packetInNode s => exact packetInNode_moves h
  | packetDuplicated s =>
    obtain ⟨n, n', hn, hadded, rfl⟩ := packetDuplicated_within_iff.1 h
    obtain ⟨-, -, rfl⟩ := ReplayedNode.addPacketToBuffer_within_iff.1 hadded
    exact move_create hn rfl rfl rfl
  | packetDropped s =>
    obtain ⟨n, n', hn, hdropped, rfl⟩ := packetDropped_within_iff.1 h
    obtain ⟨p, hp, -, rfl⟩ := ReplayedNode.packetDropped_within_iff.1 hdropped
    have hid : (n.packets.lookup s.packetId).isSome := by simp [hp]
    refine move_remove hn rfl rfl hid ?_
    cases s.reason <;> rfl
  | packetLostInTransit s => exact packetLostInTransit_moves h
  | packetExtraDelay s =>
    obtain ⟨n, n', hn, hdelay, rfl⟩ := packetExtraDelay_within_iff.1 h
    obtain ⟨p, hp, rfl⟩ := ReplayedNode.packetHasExtraDelay_within_iff.1 hdelay
    refine move_stay hn rfl rfl fun u => ?_
    by_cases hu : u = s.packetId
    · subst hu
      simp [hp]
    · rw [AList.lookup_insert_ne hu]
  | packetCongestionEvent s =>
    obtain ⟨n, hn, rfl⟩ := packetCongestionEvent_within_iff.1 h
    exact move_stay hn rfl rfl fun _ => rfl
  | packetInTransit s => exact packetInTransit_moves h
  | packetDeliveredToApplication s =>
    obtain ⟨n, n', hn, hdelivered, rfl⟩ := packetDeliveredToApplication_within_iff.1 h
    obtain ⟨p, hp, -, rfl⟩ := ReplayedNode.packetDeliveredToAppLayer_within_iff.1 hdelivered
    have hid : (n.packets.lookup s.packetId).isSome := by simp [hp]
    exact move_remove hn rfl rfl hid rfl
  | networkEvent e => exact networkEvent_moves h

theorem replayStep_moves {step : SimulationStep} (h : (v.replayStep r step).Within P r') :
    TokenMove r.Holds r'.Holds (r.introduced step.kind) := by
  obtain ⟨nodes, update, hnodes, hkind⟩ := replayStep_within h
  have hmove := replayKind_moves hkind
  have hholds : Replay.Holds { r with nodes, lastStepTime := step.relativeTime, lastBufferUsageUpdate := update } =
      r.Holds := by
    funext u m
    cases m with
    | flight => rfl
    | buffer a =>
      rcases hnodes a with ⟨hnone, hnone'⟩ | ⟨n, usage, hn, hn'⟩
      · simp [Holds, hnone, hnone']
      · simp [Holds, hn, hn']
  rw [hholds] at hmove
  exact hmove

/-- A packet that is created and not duplicated is created at a host. -/
theorem host_of_introduced {step : SimulationStep} {id : Uuid} (h : (v.replayStep r step).Clean r')
    (hid : r.introduced step.kind = some id) : (∃ s, step.kind = .packetDuplicated s ∧ s.packetId = id) ∨
      ∃ s, step.kind = .packetInNode s ∧ s.packetId = id ∧ s.nodeId ∈ v.hostNodes := by
  obtain ⟨nodes, update, hnodes, hkind⟩ := replayStep_within h
  generalize step.kind = kind at hid hkind
  cases kind with
  | packetDuplicated s => exact .inl ⟨s, rfl, Option.some.inj hid⟩
  | packetInNode s =>
    right
    simp only [introduced] at hid
    split_ifs at hid with hflight
    refine ⟨s, rfl, Option.some.inj hid, ?_⟩
    obtain ⟨n, n', hhost, -⟩ := (packetInNode_within_iff_of_created
      (r := { r with nodes, lastStepTime := step.relativeTime, lastBufferUsageUpdate := update })
      (Option.not_isSome_iff_eq_none.1 hflight)).1 hkind
    by_contra hnot
    exact hhost hnot
  | _ => simp [introduced] at hid

end SimulationVerifier

/-! ### What the log says -/

/-- Whether the packet is in flight after the step, if the step is about that. -/
def SimulationStepKind.flight (id : Uuid) : SimulationStepKind → Option Bool
  | .packetInTransit s => if s.packetId = id then some true else none
  | .packetInNode s => if s.packetId = id then some false else none
  | .packetLostInTransit s => if s.packetId = id then some false else none
  | _ => none

/-- The log has the packet in flight. -/
def inFlightAfter (steps : List SimulationStep) (id : Uuid) : Bool :=
  steps.foldl (fun flight step => (step.kind.flight id).getD flight) false

/-- The id that the step introduces, going by the log: of a packet that is not in flight, or of a duplicate. -/
def introduces (before : List SimulationStep) (step : SimulationStep) : Option Uuid :=
  match step.kind with
  | .packetInNode s => if inFlightAfter before s.packetId then none else some s.packetId
  | .packetDuplicated s => some s.packetId
  | _ => none

/-- One of the steps introduces the id. -/
def IntroducedIn (steps : List SimulationStep) (id : Uuid) : Prop :=
  ∃ pre step, pre ++ [step] <+: steps ∧ introduces pre step = some id

/-- An id that the step introduces was not introduced before. -/
def IntroducesNew (before : List SimulationStep) (step : SimulationStep) : Prop :=
  ∀ id, introduces before step = some id → ¬ IntroducedIn before id

theorem inFlightAfter_snoc (steps : List SimulationStep) (step : SimulationStep) (id : Uuid) :
    inFlightAfter (steps ++ [step]) id = (step.kind.flight id).getD (inFlightAfter steps id) := by
  simp [inFlightAfter]

theorem IntroducedIn.mono {steps steps' : List SimulationStep} {id : Uuid} (h : IntroducedIn steps id)
    (hle : steps <+: steps') : IntroducedIn steps' id := by
  obtain ⟨pre, step, hpre, hid⟩ := h
  exact ⟨pre, step, hpre.trans hle, hid⟩

namespace SimulationVerifier
open Replay
variable {v : SimulationVerifier} {r r' : Replay} {now : Nat} {P : NonFatalError → Prop}

/-- What becomes of an entry of the packets in flight. -/
structure FlightStep (kind : SimulationStepKind) (id : Uuid) (f f' : Option InFlightPacket) : Prop where
  kept : kind.flight id = none → f' = f
  landed : kind.flight id = some false → f' = none
  sent : kind.flight id = some true → f'.isSome

theorem replayKind_flightStep {kind : SimulationStepKind} (h : (v.replayKind r now kind).Within P r') (id : Uuid) :
    FlightStep kind id (r.inFlightPackets.lookup id) (r'.inFlightPackets.lookup id) := by
  have hkept : r'.inFlightPackets = r.inFlightPackets → kind.flight id = none →
      FlightStep kind id (r.inFlightPackets.lookup id) (r'.inFlightPackets.lookup id) := by
    intro hsame hflight
    exact ⟨fun _ => by rw [hsame], by simp [hflight], by simp [hflight]⟩
  have hlanded : ∀ u, kind.flight id = (if u = id then some false else none) →
      r'.inFlightPackets.lookup id = (r.inFlightPackets.erase u).lookup id →
      FlightStep kind id (r.inFlightPackets.lookup id) (r'.inFlightPackets.lookup id) := by
    intro u hflight hsame
    by_cases hu : u = id
    · subst hu
      exact ⟨by simp [hflight], fun _ => by simp [hsame], by simp [hflight]⟩
    · exact ⟨fun _ => by rw [hsame, AList.lookup_erase_ne (Ne.symm hu)], by simp [hflight, hu], by simp [hflight, hu]⟩
  have herase : ∀ u, r.inFlightPackets.lookup u = none →
      r.inFlightPackets.lookup id = (r.inFlightPackets.erase u).lookup id := by
    intro u hnone
    by_cases hu : u = id
    · subst hu
      simp [hnone]
    · rw [AList.lookup_erase_ne (Ne.symm hu)]
  cases kind with
  | packetInNode s =>
    refine hlanded s.packetId rfl ?_
    cases hf : r.inFlightPackets.lookup s.packetId with
    | some f =>
      obtain ⟨metadata, link, n, n', -, -, -, -, -, -, -, -, rfl⟩ := (packetInNode_within_iff_of_inFlight hf).1 h
      rfl
    | none =>
      obtain ⟨n, n', -, -, -, rfl⟩ := (packetInNode_within_iff_of_created hf).1 h
      exact herase _ hf
  | packetLostInTransit s =>
    refine hlanded s.packetId rfl ?_
    have h := packetLostInTransit_within_iff.1 h
    cases hf : r.inFlightPackets.lookup s.packetId with
    | some f =>
      simp only [hf] at h
      rw [h]
    | none =>
      simp only [hf] at h
      rw [h.2]
      exact herase _ hf
  | packetInTransit s =>
    obtain ⟨n, packet, n', metadata, link, link', usage, -, -, -, -, -, -, -, -, rfl⟩ := packetInTransit_within_iff.1 h
    by_cases hu : s.packetId = id
    · subst hu
      exact ⟨by simp [SimulationStepKind.flight], by simp [SimulationStepKind.flight], fun _ => by simp⟩
    · refine ⟨fun _ => ?_, by simp [SimulationStepKind.flight, hu], by simp [SimulationStepKind.flight, hu]⟩
      exact AList.lookup_insert_ne (Ne.symm hu)
  | packetDuplicated s =>
    obtain ⟨n, n', -, -, rfl⟩ := packetDuplicated_within_iff.1 h
    exact hkept rfl rfl
  | packetDropped s =>
    obtain ⟨n, n', -, -, rfl⟩ := packetDropped_within_iff.1 h
    exact hkept rfl rfl
  | packetExtraDelay s =>
    obtain ⟨n, n', -, -, rfl⟩ := packetExtraDelay_within_iff.1 h
    exact hkept rfl rfl
  | packetCongestionEvent s =>
    obtain ⟨n, -, rfl⟩ := packetCongestionEvent_within_iff.1 h
    exact hkept rfl rfl
  | packetDeliveredToApplication s =>
    obtain ⟨n, n', -, -, rfl⟩ := packetDeliveredToApplication_within_iff.1 h
    exact hkept rfl rfl
  | networkEvent e =>
    obtain ⟨links, ⟨-, rfl⟩ | ⟨payload, n, -, -, rfl⟩⟩ := exists_of_networkEvent h
    · exact hkept rfl rfl
    · exact hkept rfl rfl

theorem replayKind_flight {kind : SimulationStepKind} (h : (v.replayKind r now kind).Within P r') (id : Uuid) :
    (r'.inFlightPackets.lookup id).isSome = (kind.flight id).getD (r.inFlightPackets.lookup id).isSome := by
  have hstep := replayKind_flightStep h id
  cases hflight : kind.flight id with
  | none => rw [hstep.kept hflight, Option.getD_none]
  | some flying =>
    cases flying with
    | false => rw [hstep.landed hflight, Option.isSome_none, Option.getD_some]
    | true => rw [hstep.sent hflight, Option.getD_some]

/-- The steps are replayed without an error, to the state `r`. -/
def CleanAfter (v : SimulationVerifier) (steps : List SimulationStep) (r : Replay) : Prop :=
  (v.replay v.start steps).Clean r

theorem cleanAfter_snoc {steps : List SimulationStep} {step : SimulationStep} :
    v.CleanAfter (steps ++ [step]) r' ↔ ∃ r, v.CleanAfter steps r ∧ (v.replayStep r step).Clean r' := by
  unfold CleanAfter replay Tracked.Clean
  simp only [Tracked.within_fold_append, Tracked.within_fold_singleton]

theorem CleanAfter.exists_before {pre steps : List SimulationStep} (h : v.CleanAfter steps r) (hpre : pre <+: steps) :
    ∃ r₀, v.CleanAfter pre r₀ := by
  obtain ⟨post, rfl⟩ := hpre
  obtain ⟨r₀, h₀, -⟩ := Tracked.within_fold_append.1 h
  exact ⟨r₀, h₀⟩

/-- No packets are replayed yet. -/
def NoPackets (v : SimulationVerifier) : Prop := ∀ id n, v.nodes.lookup id = some n → n.packets = ∅

variable {pre steps : List SimulationStep} {id : Uuid}

theorem flight_replay (h : (v.replay v.start steps).Within P r) :
    (r.inFlightPackets.lookup id).isSome = inFlightAfter steps id := by
  induction steps using List.reverseRecOn generalizing r with
  | nil =>
    obtain rfl := (Tracked.within_pure_iff (P := P)).1 h
    simp [start, inFlightAfter, AList.lookup_empty]
  | append_singleton steps step ih =>
    obtain ⟨r₀, h₀, hstep⟩ := Tracked.within_fold_append.1 h
    obtain ⟨nodes, update, -, hkind⟩ := replayStep_within (Tracked.within_fold_singleton.1 hstep)
    rw [replayKind_flight hkind, inFlightAfter_snoc, ← ih h₀]

theorem introduced_replay (h : (v.replay v.start steps).Within P r) (step : SimulationStep) :
    r.introduced step.kind = introduces steps step := by
  unfold introduced introduces
  cases step.kind with
  | packetInNode s => simp only [flight_replay h]
  | _ => rfl

theorem introducedIn_replay (hempty : v.NoPackets) (h : (v.replay v.start steps).Within P r) {m : Holder}
    (hm : r.Holds id m) : IntroducedIn steps id := by
  induction steps using List.reverseRecOn generalizing r m with
  | nil =>
    obtain rfl := (Tracked.within_pure_iff (P := P)).1 h
    cases m with
    | flight => simp [Holds, start, AList.lookup_empty] at hm
    | buffer a =>
      obtain ⟨n, hn, hid⟩ := hm
      simp [hempty a n hn, AList.lookup_empty] at hid
  | append_singleton steps step ih =>
    obtain ⟨r₀, h₀, hstep⟩ := Tracked.within_fold_append.1 h
    rcases (replayStep_moves (Tracked.within_fold_singleton.1 hstep)).origin hm with ⟨m₀, hm₀⟩ | hcreated
    · exact (ih h₀ hm₀).mono (List.prefix_append ..)
    · rw [introduced_replay h₀] at hcreated
      exact ⟨steps, step, List.prefix_rfl, hcreated⟩

/-- A packet that is introduced is held for a moment at least. -/
theorem CleanAfter.exists_holds (h : v.CleanAfter steps r) (hid : IntroducedIn steps id) :
    ∃ pre r₀ m, pre <+: steps ∧ v.CleanAfter pre r₀ ∧ r₀.Holds id m := by
  obtain ⟨pre, step, hpre, hid⟩ := hid
  obtain ⟨r₁, h₁⟩ := h.exists_before hpre
  obtain ⟨r₀, h₀, hstep⟩ := cleanAfter_snoc.1 h₁
  have hmove := replayStep_moves hstep
  rw [introduced_replay h₀, hid] at hmove
  obtain ⟨m, hm⟩ := hmove.exists_of_some
  exact ⟨_, r₁, m, hpre, h₁, hm⟩

/-- As long as only new ids are introduced, every packet is at one place. -/
theorem onePlace_replay (hempty : v.NoPackets) (h : (v.replay v.start steps).Within P r) (hnew : Along IntroducesNew steps) :
    OnePlace r.Holds := by
  induction steps using List.reverseRecOn generalizing r with
  | nil =>
    intro id m m' hm
    obtain ⟨pre, step, hpre, -⟩ := introducedIn_replay hempty h hm
    simp at hpre
  | append_singleton steps step ih =>
    obtain ⟨r₀, h₀, hstep⟩ := Tracked.within_fold_append.1 h
    obtain ⟨hsteps, hlast⟩ := along_snoc.1 hnew
    refine (ih h₀ hsteps).move (replayStep_moves (Tracked.within_fold_singleton.1 hstep)) fun id hid m hm => ?_
    rw [introduced_replay h₀] at hid
    exact hlast id hid (introducedIn_replay hempty h₀ hm)

end SimulationVerifier

/-- No packet is conjured or cloned: after every prefix of the steps every id is held at one place at most;
an id that comes to be held is created at a host, or by a duplication; and when an id is created, it
was never held before. -/
structure NoneConjured (spec : NetworkSpec) (v : SimulationVerifier) : Prop where
  onePlace : ∀ pre r, pre <+: v.steps → v.CleanAfter pre r → OnePlace r.Holds
  origin : ∀ pre step r r' id, pre ++ [step] <+: v.steps → v.CleanAfter pre r → v.CleanAfter (pre ++ [step]) r' →
    (∀ m, ¬ r.Holds id m) → (∃ m, r'.Holds id m) → (∃ s, step.kind = .packetDuplicated s ∧ s.packetId = id) ∨
      ∃ s, step.kind = .packetInNode s ∧ s.packetId = id ∧ ∃ n ∈ spec.nodes, n.kind = .host ∧ n.id = s.nodeId
  new : ∀ pre step r id, pre ++ [step] <+: v.steps → v.CleanAfter pre r → r.introduced step.kind = some id →
    ∀ pre₀ r₀ m, pre₀ <+: pre → v.CleanAfter pre₀ r₀ → ¬ r₀.Holds id m

namespace SimulationVerifier
variable {spec : NetworkSpec} {steps : List SimulationStep} {order : List String} {v : SimulationVerifier}

theorem Tables.noPackets (h : v.Tables spec steps) : v.NoPackets := fun id n hn => by
  rw [((h.nodes id n).1 hn).2]
  rfl

/-- Ending without errors is replaying all steps without errors, and their prefixes. -/
theorem cleanAfter_of_verify {verified : VerifiedSimulation} (hv : v.verify = some (.ok verified))
    (herrors : verified.nonFatalErrors = []) : ∃ r, v.CleanAfter v.steps r := by
  unfold verify at hv
  cases hresult : v.run.result with
  | error stop => cases stop <;> simp [hresult] at hv
  | ok r =>
    simp only [hresult, Option.some.injEq, Except.ok.injEq] at hv
    have hclean : v.run.Clean r := ⟨hresult, fun e he => by
      rw [← hv] at herrors
      simp only at herrors
      simp [herrors] at he⟩
    obtain ⟨r₀, h₀, -⟩ := Tracked.within_bind_iff.1 hclean
    exact ⟨r₀, h₀⟩

theorem noneConjured_of_new (htables : v.Tables spec steps)
    (hnew : Along IntroducesNew v.steps) : NoneConjured spec v where
  onePlace pre r₀ hpre h₀ := by
    obtain ⟨post, hpost⟩ := hpre
    rw [← hpost] at hnew
    exact onePlace_replay htables.noPackets h₀ hnew.left
  origin pre step r₀ r₁ id hpre h₀ h₁ hnot hm := by
    obtain ⟨r₀', h₀', hstep⟩ := cleanAfter_snoc.1 h₁
    obtain rfl := h₀.unique h₀'
    obtain ⟨m, hm⟩ := hm
    rcases (replayStep_moves hstep).origin hm with ⟨m₀, hm₀⟩ | hcreated
    · exact absurd hm₀ (hnot m₀)
    · rcases host_of_introduced hstep hcreated with hduplicated | ⟨s, hkind, hid, hhost⟩
      · exact .inl hduplicated
      · exact .inr ⟨s, hkind, hid, (htables.hostNodes _).1 hhost⟩
  new pre step r₀ id hpre h₀ hid pre₁ r₁ m hpre₁ h₁ hm := by
    rw [introduced_replay h₀] at hid
    refine along_iff_forall_split.1 hnew pre step hpre id hid ?_
    exact (introducedIn_replay htables.noPackets h₁ hm).mono hpre₁

theorem new_of_noneConjured {r : Replay} (h : v.CleanAfter v.steps r) (hnone : NoneConjured spec v) :
    Along IntroducesNew v.steps := by
  refine along_iff_forall_split.2 fun pre step hpre id hid hintroduced => ?_
  obtain ⟨r₀, h₀⟩ := h.exists_before ((List.prefix_append pre [step]).trans hpre)
  obtain ⟨pre₁, r₁, m, hpre₁, h₁, hm⟩ := h₀.exists_holds hintroduced
  rw [← introduced_replay h₀] at hid
  exact hnone.new pre step r₀ id hpre h₀ hid pre₁ r₁ m hpre₁ h₁ hm

end SimulationVerifier

/-! ### Results -/

/-- The packet is created at the node. -/
def createdAt (nodeId : String) (packetId : Uuid) : SimulationStep :=
  { relativeTime := 0
    kind := .packetInNode { packetId, packetNumber := 0, packetSizeBytes := 128, nodeId, droppedOnArrival := false } }

def createdTwice : List SimulationStep := [createdAt "A" 1] ++ [createdAt "B" 1]

/-- A packet is created at host `A`, and again at host `B`: the verifier finds no error. -/
theorem packet_created_twice : ∃ v verified, SimulationVerifier.new ["A", "B"] createdTwice (hostPair 8000000 0) = .ok v ∧
    v.verify = some (.ok verified) ∧ verified.nonFatalErrors = [] ∧ ¬ NoneConjured (hostPair 8000000 0) v := by
  obtain ⟨v, verified, hnew, hv, herrors⟩ := SimulationVerifier.exists_verified (hostPair 8000000 0) ["A", "B"] createdTwice
    (·.nonFatalErrors = []) (by decide +kernel)
  have herrors := of_decide_eq_true herrors
  refine ⟨v, verified, hnew, hv, herrors, fun hnone => ?_⟩
  obtain ⟨r, h⟩ := SimulationVerifier.cleanAfter_of_verify hv herrors
  have hsteps : v.steps = [createdAt "A" 1] ++ [createdAt "B" 1] := by
    rw [(SimulationVerifier.new_tables hnew).steps]
    rfl
  have hsplit := SimulationVerifier.new_of_noneConjured h hnone
  rw [hsteps, along_snoc] at hsplit
  exact hsplit.2 1 rfl ⟨[], createdAt "A" 1, List.prefix_rfl, rfl⟩

/-- For every network graph and every log that is verified without errors, no packet is conjured or cloned exactly
if every step that introduces an id, going by the log, introduces a new one. -/
theorem noneConjured_iff {spec : NetworkSpec} {steps : List SimulationStep} {order : List String}
    {v : SimulationVerifier} {verified : VerifiedSimulation} (hnew : SimulationVerifier.new order steps spec = .ok v)
    (hv : v.verify = some (.ok verified)) (herrors : verified.nonFatalErrors = []) :
    NoneConjured spec v ↔ Along IntroducesNew v.steps := by
  obtain ⟨r, h⟩ := SimulationVerifier.cleanAfter_of_verify hv herrors
  exact ⟨SimulationVerifier.new_of_noneConjured h, SimulationVerifier.noneConjured_of_new (SimulationVerifier.new_tables hnew)⟩

/-- A packet that host `A` creates is at one place, also when host `B` creates another one. -/
theorem noneConjured_hostPair : ∃ v verified, SimulationVerifier.new ["A", "B"] ([createdAt "A" 1] ++ [createdAt "B" 2])
      (hostPair 8000000 0) = .ok v ∧
    v.verify = some (.ok verified) ∧ verified.nonFatalErrors = [] ∧ NoneConjured (hostPair 8000000 0) v := by
  obtain ⟨v, verified, hnew, hv, herrors⟩ := SimulationVerifier.exists_verified (hostPair 8000000 0) ["A", "B"]
    ([createdAt "A" 1] ++ [createdAt "B" 2]) (·.nonFatalErrors = []) (by decide +kernel)
  have herrors := of_decide_eq_true herrors
  refine ⟨v, verified, hnew, hv, herrors, (noneConjured_iff hnew hv herrors).2 ?_⟩
  have hsteps : v.steps = [] ++ [createdAt "A" 1] ++ [createdAt "B" 2] := by
    rw [(SimulationVerifier.new_tables hnew).steps]
    rfl
  rw [hsteps, along_snoc, along_snoc]
  refine ⟨⟨along_nil, ?_⟩, ?_⟩
  · rintro id - ⟨pre, step, hpre, -⟩
    simp at hpre
  · rintro id hid ⟨pre, step, hpre, hid'⟩
    obtain rfl : 2 = id := Option.some.inj hid
    obtain rfl : pre = [] := by
      have hlen := hpre.length_le
      simpa using hlen
    obtain rfl : step = createdAt "A" 1 := by simpa using hpre
    have hne : introduces [] (createdAt "A" 1) ≠ some 2 := by decide
    exact hne hid'

end QuicWorkbench
