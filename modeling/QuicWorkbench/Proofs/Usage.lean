import QuicWorkbench.Proofs.OnePlace

/-!
# What is in the buffers of a replay

A step puts at most one packet into the buffer of a node (`Replay.brings`) and takes at most one out of it
(`SimulationStepKind.takes`). The highest buffer usage of a node is looked at when time advances, so `verify` does not
report a node that exceeds its buffer as long as every node fits at the end of every instant.
-/

namespace QuicWorkbench

/-- The packet that the step takes out of the buffer of a node. -/
def SimulationStepKind.takes : SimulationStepKind → Option (String × Uuid)
  | .packetDropped s => some (s.nodeId, s.packetId)
  | .packetInTransit s => some (s.nodeId, s.packetId)
  | .packetDeliveredToApplication s => some (s.nodeId, s.packetId)
  | _ => none

/-- The packet that the step puts into the buffer of a node, and its size: if a host has just created it, also if it is
dropped on arrival. -/
def Replay.brings (r : Replay) : SimulationStepKind → Option (String × Uuid × Nat)
  | .packetInNode s =>
    if s.droppedOnArrival && (r.inFlightPackets.lookup s.packetId).isSome then none
    else some (s.nodeId, s.packetId, s.packetSizeBytes)
  | .packetDuplicated s => some (s.nodeId, s.packetId, s.packetSizeBytes)
  | _ => none

/-- The packet is in the buffer of the node, and of that size. -/
def ReplayedNode.Buffers (n : ReplayedNode) (id : Uuid) (size : Nat) : Prop :=
  ∃ p, n.packets.lookup id = some p ∧ p.sizeBytes = size

def Replay.Buffers (r : Replay) (nodeId : String) (id : Uuid) (size : Nat) : Prop :=
  ∃ n, r.nodes.lookup nodeId = some n ∧ n.Buffers id size

def NonFatalError.exceedsBufferSize : NonFatalError → Bool
  | .nodeExceedsBufferSize .. => true
  | _ => false

/-- What the step makes of the buffer of the node. -/
structure BufferStep (r : Replay) (kind : SimulationStepKind) (nodeId : String) (n n' : ReplayedNode) : Prop where
  maxBufferUsage : n'.maxBufferUsage = n.maxBufferUsage
  packets : ∀ id size, n'.Buffers id size →
    n.Buffers id size ∧ kind.takes ≠ some (nodeId, id) ∨ r.brings kind = some (nodeId, id, size)

/-- What the step makes of the buffers of all nodes. -/
structure BuffersStep (r : Replay) (kind : SimulationStepKind) (r' : Replay) : Prop where
  lastStepTime : r'.lastStepTime = r.lastStepTime
  nodes : ∀ nodeId n', r'.nodes.lookup nodeId = some n' → ∃ n, r.nodes.lookup nodeId = some n ∧
    BufferStep r kind nodeId n n'

namespace BufferStep
variable {r : Replay} {kind : SimulationStepKind} {nodeId : String} {n n' : ReplayedNode} {id : Uuid}

theorem add {p : ReplayedPacket} (hmax : n'.maxBufferUsage = n.maxBufferUsage) (hpackets : n'.packets = n.packets.insert id p)
    (htakes : kind.takes = none) (hbrings : r.brings kind = some (nodeId, id, p.sizeBytes)) : BufferStep r kind nodeId n n' where
  maxBufferUsage := hmax
  packets u size hu := by
    obtain ⟨q, hq, rfl⟩ := hu
    rw [hpackets] at hq
    by_cases heq : u = id
    · subst heq
      rw [AList.lookup_insert] at hq
      exact .inr (Option.some.inj hq ▸ hbrings)
    · rw [AList.lookup_insert_ne heq] at hq
      exact .inl ⟨⟨q, hq, rfl⟩, by simp [htakes]⟩

theorem remove (hmax : n'.maxBufferUsage = n.maxBufferUsage) (hpackets : n'.packets = n.packets.erase id)
    (htakes : kind.takes = some (nodeId, id)) : BufferStep r kind nodeId n n' where
  maxBufferUsage := hmax
  packets u size hu := by
    obtain ⟨q, hq, rfl⟩ := hu
    rw [hpackets] at hq
    by_cases heq : u = id
    · subst heq
      simp at hq
    · rw [AList.lookup_erase_ne heq] at hq
      exact .inl ⟨⟨q, hq, rfl⟩, by simp [htakes, Ne.symm heq]⟩

theorem stay (hmax : n'.maxBufferUsage = n.maxBufferUsage) (hpackets : ∀ u size, n'.Buffers u size → n.Buffers u size)
    (htakes : kind.takes = none) : BufferStep r kind nodeId n n' where
  maxBufferUsage := hmax
  packets u size hu := .inl ⟨hpackets u size hu, by simp [htakes]⟩

end BufferStep

namespace BuffersStep
variable {r r' : Replay} {kind : SimulationStepKind} {nodeId : String} {n n' : ReplayedNode}

theorem insert (hn : r.nodes.lookup nodeId = some n) (hnodes : r'.nodes = r.nodes.insert nodeId n')
    (htime : r'.lastStepTime = r.lastStepTime) (hstep : BufferStep r kind nodeId n n')
    (hother : ∀ a id, a ≠ nodeId → kind.takes ≠ some (a, id)) : BuffersStep r kind r' where
  lastStepTime := htime
  nodes a m hm := by
    rw [hnodes] at hm
    by_cases ha : a = nodeId
    · subst ha
      rw [AList.lookup_insert] at hm
      exact ⟨n, hn, Option.some.inj hm ▸ hstep⟩
    · rw [AList.lookup_insert_ne ha] at hm
      exact ⟨m, hm, rfl, fun id size hid => .inl ⟨hid, hother a id ha⟩⟩

theorem same (hnodes : r'.nodes = r.nodes) (htime : r'.lastStepTime = r.lastStepTime) (htakes : kind.takes = none) :
    BuffersStep r kind r' where
  lastStepTime := htime
  nodes a m hm := ⟨m, hnodes ▸ hm, rfl, fun id size hid => .inl ⟨hid, by simp [htakes]⟩⟩

end BuffersStep

namespace SimulationVerifier
variable {v : SimulationVerifier} {r r' : Replay} {now : Nat} {P : NonFatalError → Prop}

theorem packetInNode_buffers {s : PacketInNode} (h : (v.packetInNode r now s).Within P r') :
    BuffersStep r (.packetInNode s) r' := by
  cases hf : r.inFlightPackets.lookup s.packetId with
  | none =>
    obtain ⟨n, n', -, hn, hadded, rfl⟩ := (packetInNode_within_iff_of_created hf).1 h
    obtain ⟨-, -, rfl⟩ := ReplayedNode.addPacketToBuffer_within_iff.1 hadded
    exact .insert hn rfl rfl (.add rfl rfl rfl (by simp [Replay.brings, hf])) (by simp [SimulationStepKind.takes])
  | some f =>
    obtain ⟨metadata, link, n, n', -, -, -, -, -, -, hn, hreceived, rfl⟩ := (packetInNode_within_iff_of_inFlight hf).1 h
    rw [ReplayedNode.packetReceived_within_iff] at hreceived
    refine .insert hn rfl rfl ?_ (by simp [SimulationStepKind.takes])
    split_ifs at hreceived with hdropped
    · obtain ⟨-, rfl⟩ := hreceived
      exact .stay rfl (fun _ _ h => h) rfl
    · obtain ⟨-, -, rfl⟩ := ReplayedNode.addPacketToBuffer_within_iff.1 hreceived
      exact .add rfl rfl rfl (by simp [Replay.brings, hdropped])

theorem networkEvent_buffers {e : NetworkEventStep} (h : (networkEvent r now e).Within P r') :
    BuffersStep r (.networkEvent e) r' := by
  obtain ⟨links, ⟨-, rfl⟩ | ⟨payload, n, -, hn, rfl⟩⟩ := exists_of_networkEvent h
  · exact .same rfl rfl rfl
  · obtain ⟨lastDown, heq⟩ := n.handleEvent_eq payload now
    rw [heq]
    exact .insert hn rfl rfl (.stay rfl (fun _ _ hu => hu) rfl) (by simp [SimulationStepKind.takes])

/-- Every step moves packets into and out of buffers as its kind says. -/
theorem replayKind_buffers {kind : SimulationStepKind} (h : (v.replayKind r now kind).Within P r') :
    BuffersStep r kind r' := by
  cases kind with
  | packetInNode s => exact packetInNode_buffers h
  | packetDuplicated s =>
    obtain ⟨n, n', hn, hadded, rfl⟩ := packetDuplicated_within_iff.1 h
    obtain ⟨-, -, rfl⟩ := ReplayedNode.addPacketToBuffer_within_iff.1 hadded
    exact .insert hn rfl rfl (.add rfl rfl rfl rfl) (by simp [SimulationStepKind.takes])
  | packetDropped s =>
    obtain ⟨n, n', hn, hdropped, rfl⟩ := packetDropped_within_iff.1 h
    obtain ⟨p, -, -, rfl⟩ := ReplayedNode.packetDropped_within_iff.1 hdropped
    refine .insert hn rfl rfl (.remove ?_ ?_ rfl) (by simp +contextual [SimulationStepKind.takes, eq_comm])
    · cases s.reason <;> rfl
    · cases s.reason <;> rfl
  | packetLostInTransit s =>
    obtain ⟨inFlightPackets, statsByLink, rfl⟩ := exists_of_packetLostInTransit h
    exact .same rfl rfl rfl
  | packetExtraDelay s =>
    obtain ⟨n, n', hn, hdelay, rfl⟩ := packetExtraDelay_within_iff.1 h
    obtain ⟨p, hp, rfl⟩ := ReplayedNode.packetHasExtraDelay_within_iff.1 hdelay
    refine .insert hn rfl rfl (.stay rfl (fun u size hu => ?_) rfl) (by simp [SimulationStepKind.takes])
    obtain ⟨q, hq, rfl⟩ := hu
    by_cases hid : u = s.packetId
    · subst hid
      rw [AList.lookup_insert] at hq
      exact ⟨p, hp, Option.some.inj hq ▸ rfl⟩
    · rw [AList.lookup_insert_ne hid] at hq
      exact ⟨q, hq, rfl⟩
  | packetCongestionEvent s =>
    obtain ⟨n, hn, rfl⟩ := packetCongestionEvent_within_iff.1 h
    exact .insert hn rfl rfl (.stay rfl (fun _ _ h => h) rfl) (by simp [SimulationStepKind.takes])
  | packetInTransit s =>
    obtain ⟨n, packet, n', metadata, link, link', usage, hn, hsent, -, -, -, -, -, -, rfl⟩ := packetInTransit_within_iff.1 h
    obtain ⟨-, -, -, -, rfl⟩ := ReplayedNode.packetSent_within_iff.1 hsent
    exact .insert hn rfl rfl (.remove rfl rfl rfl) (by simp +contextual [SimulationStepKind.takes, eq_comm])
  | packetDeliveredToApplication s =>
    obtain ⟨n, n', hn, hdelivered, rfl⟩ := packetDeliveredToApplication_within_iff.1 h
    obtain ⟨p, -, -, rfl⟩ := ReplayedNode.packetDeliveredToAppLayer_within_iff.1 hdelivered
    exact .insert hn rfl rfl (.remove rfl rfl rfl) (by simp +contextual [SimulationStepKind.takes, eq_comm])
  | networkEvent e => exact networkEvent_buffers h

theorem replay_snoc_buffers {steps : List SimulationStep} {step : SimulationStep}
    (h : (v.replay v.start (steps ++ [step])).result = .ok r') : ∃ r, (v.replay v.start steps).result = .ok r ∧
      ∀ nodeId id size, r'.Buffers nodeId id size →
        r.Buffers nodeId id size ∧ step.kind.takes ≠ some (nodeId, id) ∨ r.brings step.kind = some (nodeId, id, size) := by
  have hwithin : (v.replay v.start (steps ++ [step])).Within (fun _ => True) r' := ⟨h, fun _ _ => trivial⟩
  obtain ⟨r, hr, hstep⟩ := Tracked.within_fold_append.1 hwithin
  obtain ⟨nodes, update, hnodes, hkind⟩ := replayStep_within (Tracked.within_fold_singleton.1 hstep)
  refine ⟨r, hr.1, fun nodeId id size hbuffers => ?_⟩
  obtain ⟨n', hn', hbuffers⟩ := hbuffers
  obtain ⟨m, hm, hstep⟩ := (replayKind_buffers hkind).nodes nodeId n' hn'
  refine (hstep.packets id size hbuffers).imp_left fun hold => ⟨?_, hold.2⟩
  obtain ⟨n, usage, hn, rfl⟩ := hnodes.origin hm
  exact ⟨n, hn, hold.1⟩

/-! ### Reports about buffer sizes -/

theorem packetInNode_errors (v : SimulationVerifier) (r : Replay) (now : Nat) (s : PacketInNode) :
    (v.packetInNode r now s).Ensures (fun e => e.exceedsBufferSize = false) fun _ => True := by
  have hreceive : ∀ r₁ : Replay, (do
      let node ← tryFatal (r₁.nodes.lookup s.nodeId) (.missingNode s.nodeId)
      let node ← node.packetReceived s now
      pure { r₁ with nodes := r₁.nodes.insert s.nodeId node } : Replaying Replay).Ensures
        (fun e => e.exceedsBufferSize = false) fun _ => True := by
    intro r₁
    refine .bind Tracked.ensures_ofOption fun n _ => ?_
    refine .bind ((n.packetReceived_ensures s now).mono ?_ fun _ h => h) fun _ _ => Tracked.ensures_pure trivial
    rintro e (rfl | ⟨-, -, rfl⟩) <;> rfl
  unfold packetInNode
  split
  · refine .bind Tracked.ensures_ofOption fun metadata _ => ?_
    refine .bind (Tracked.ensures_trackIf fun _ => rfl) fun _ _ => ?_
    refine .bind Tracked.ensures_ofOption fun timeInFlight _ => ?_
    refine .bind (Tracked.ensures_trackIf fun _ => rfl) fun _ _ => ?_
    refine .bind Tracked.ensures_ofOption fun link _ => ?_
    split
    · refine .bind (Tracked.ensures_trackIf fun _ => rfl) fun _ _ => ?_
      exact hreceive _
    · exact hreceive _
  · refine .bind (Tracked.ensures_trackIf fun _ => rfl) fun _ _ => ?_
    refine .bind Tracked.ensures_ofOption fun n _ => ?_
    refine .bind ((n.addPacketToBuffer_ensures s.packetId s.packetSizeBytes now).mono ?_ fun _ h => h)
      fun _ _ => Tracked.ensures_pure trivial
    rintro e rfl
    rfl

theorem networkEvent_errors (r : Replay) (now : Nat) (e : NetworkEventStep) :
    (networkEvent r now e).Ensures (fun e => e.exceedsBufferSize = false) fun _ => True := by
  unfold networkEvent
  refine .bind (Q := fun _ => True) ?_ fun r₁ _ => ?_
  · split
    · unfold linkEvent
      split
      · exact Tracked.ensures_pure trivial
      · exact .bind Tracked.ensures_ofOption fun link _ => Tracked.ensures_pure trivial
    · exact Tracked.ensures_pure trivial
  · split
    · exact .bind Tracked.ensures_ofOption fun n _ => Tracked.ensures_pure trivial
    · exact Tracked.ensures_pure trivial

/-- Buffer usages are only reported about when time advances. -/
theorem replayKind_errors (v : SimulationVerifier) (r : Replay) (now : Nat) (kind : SimulationStepKind) :
    (v.replayKind r now kind).Ensures (fun e => e.exceedsBufferSize = false) fun _ => True := by
  cases kind with
  | packetInNode s => exact packetInNode_errors v r now s
  | packetDuplicated s =>
    refine .bind Tracked.ensures_ofOption fun n _ => ?_
    refine .bind ((n.packetDuplicated_ensures s now).mono ?_ fun _ h => h) fun _ _ => Tracked.ensures_pure trivial
    rintro e rfl
    rfl
  | packetDropped s =>
    refine .bind Tracked.ensures_ofOption fun n _ => ?_
    exact .bind ((n.packetDropped_ensures s).mono (fun _ he => he.elim) fun _ h => h)
      fun _ _ => Tracked.ensures_pure trivial
  | packetLostInTransit s =>
    simp only [replayKind]
    unfold packetLostInTransit
    split
    · exact Tracked.ensures_pure trivial
    · exact .bind (Tracked.ensures_track rfl) fun _ _ => Tracked.ensures_pure trivial
  | packetExtraDelay s =>
    refine .bind Tracked.ensures_ofOption fun n _ => ?_
    exact .bind ((n.packetHasExtraDelay_ensures s.packetId s.extraDelay).mono (fun _ he => he.elim) fun _ h => h)
      fun _ _ => Tracked.ensures_pure trivial
  | packetCongestionEvent s => exact .bind Tracked.ensures_ofOption fun n _ => Tracked.ensures_pure trivial
  | packetInTransit s =>
    refine .bind Tracked.ensures_ofOption fun n _ => ?_
    refine .bind ((n.packetSent_ensures s.packetId).mono ?_ fun _ h => h) fun x _ => ?_
    · rintro e (⟨-, rfl⟩ | rfl) <;> rfl
    refine .bind Tracked.ensures_ofOption fun metadata _ => ?_
    refine .bind (Tracked.ensures_trackIf fun _ => rfl) fun _ _ => ?_
    refine .bind Tracked.ensures_ofOption fun link _ => ?_
    refine .bind (Tracked.ensures_trackIf fun _ => rfl) fun _ _ => ?_
    refine .bind Tracked.ensures_ofOption fun sent _ => ?_
    exact .bind (Tracked.ensures_trackIf fun _ => rfl) fun _ _ => Tracked.ensures_pure trivial
  | packetDeliveredToApplication s =>
    refine .bind Tracked.ensures_ofOption fun n _ => ?_
    exact .bind ((n.packetDeliveredToAppLayer_ensures s.packetId).mono (fun _ he => he.elim) fun _ h => h)
      fun _ _ => Tracked.ensures_pure trivial
  | networkEvent e => exact networkEvent_errors r now e

/-- The buffer usage of every node is at most the size of its buffer. -/
def Fits (v : SimulationVerifier) (nodes : HashMap String ReplayedNode) : Prop :=
  ∀ nodeId n m, nodes.lookup nodeId = some n → v.nodeMetadata.lookup nodeId = some m → n.bufferUsage ≤ m.bufferSizeBytes

/-- It was so whenever it was looked at. -/
def FitSoFar (v : SimulationVerifier) (nodes : HashMap String ReplayedNode) : Prop :=
  ∀ nodeId n m, nodes.lookup nodeId = some n → v.nodeMetadata.lookup nodeId = some m →
    n.maxBufferUsage ≤ m.bufferSizeBytes

theorem updateMaxBufferUsageLoop_fits (order : List String) {nodes : HashMap String ReplayedNode} (hfits : v.Fits nodes)
    (hsofar : v.FitSoFar nodes) : (v.updateMaxBufferUsageLoop order nodes).Ensures (fun _ => False) (v.FitSoFar ·) := by
  induction order generalizing nodes with
  | nil => exact Tracked.ensures_pure hsofar
  | cons nodeId order ih =>
    rw [updateMaxBufferUsageLoop]
    split
    · exact ih hfits hsofar
    · rename_i n hn
      refine .bind Tracked.ensures_ofOption fun metadata hmetadata => ?_
      have hmax : n.updateMaxBufferUsage.maxBufferUsage ≤ metadata.bufferSizeBytes :=
        Nat.max_le.2 ⟨hfits nodeId n metadata hn hmetadata, hsofar nodeId n metadata hn hmetadata⟩
      rw [if_neg (Nat.not_lt.2 hmax)]
      refine ih (fun a n' m hn' hm => ?_) fun a n' m hn' hm => ?_
      · by_cases ha : a = nodeId
        · subst ha
          rw [AList.lookup_insert] at hn'
          rw [← Option.some.inj hn']
          exact hfits a n m hn hm
        · rw [AList.lookup_insert_ne ha] at hn'
          exact hfits a n' m hn' hm
      · by_cases ha : a = nodeId
        · subst ha
          rw [AList.lookup_insert] at hn'
          rw [← Option.some.inj hn', ← Option.some.inj (hmetadata.symm.trans hm)]
          exact hmax
        · rw [AList.lookup_insert_ne ha] at hn'
          exact hsofar a n' m hn' hm

theorem updateMaxBufferUsage_fits (hfits : v.Fits r.nodes) (hsofar : v.FitSoFar r.nodes) :
    (v.updateMaxBufferUsage r).Ensures (fun _ => False) fun r' => v.FitSoFar r'.nodes := by
  unfold updateMaxBufferUsage
  exact .bind (updateMaxBufferUsageLoop_fits v.nodeOrder hfits hsofar) fun nodes hnodes => Tracked.ensures_pure hnodes

/-- Nothing is reported when time advances from an instant at whose end every node fits. -/
theorem advanceTime_fits {time : Nat} (hfits : time ≠ r.lastStepTime → v.Fits r.nodes) (hsofar : v.FitSoFar r.nodes) :
    (v.advanceTime r time).Ensures (fun _ => False) fun r' => v.FitSoFar r'.nodes ∧ r'.lastStepTime = time := by
  unfold advanceTime
  split_ifs with htime
  · exact .bind (updateMaxBufferUsage_fits (hfits htime) hsofar) fun r₁ hr₁ => Tracked.ensures_pure ⟨hr₁, rfl⟩
  · exact Tracked.ensures_pure ⟨hsofar, by simpa [eq_comm] using htime⟩

theorem replayStep_fits {step : SimulationStep} (hfits : step.relativeTime ≠ r.lastStepTime → v.Fits r.nodes)
    (hsofar : v.FitSoFar r.nodes) : (v.replayStep r step).Ensures (fun e => e.exceedsBufferSize = false)
      fun r' => v.FitSoFar r'.nodes ∧ r'.lastStepTime = step.relativeTime := by
  unfold replayStep
  refine .bind ((advanceTime_fits hfits hsofar).mono (fun e he => he.elim) fun _ h => h) fun r₁ hr₁ => ?_
  refine ⟨(replayKind_errors v r₁ step.relativeTime step.kind).errors, fun r' hr' => ?_⟩
  have hbuffers : BuffersStep r₁ step.kind r' := replayKind_buffers (P := fun _ => True) ⟨hr', fun _ _ => trivial⟩
  refine ⟨fun nodeId n' m hn' hm => ?_, hbuffers.lastStepTime.trans hr₁.2⟩
  obtain ⟨n, hn, hstep⟩ := hbuffers.nodes nodeId n' hn'
  rw [hstep.maxBufferUsage]
  exact hr₁.1 nodeId n m hn hm

/-- The steps are all that there are up to the end of some instant. -/
def EndsInstant (before after : List SimulationStep) : Prop :=
  ∀ a ∈ before, ∀ b ∈ after, a.relativeTime < b.relativeTime

/-- At the end of every instant, the replayed nodes fit their buffers. -/
def InstantsFit (v : SimulationVerifier) : Prop :=
  ∀ before after, v.steps = before ++ after → EndsInstant before after →
    ∀ r, (v.replay v.start before).result = .ok r → v.Fits r.nodes

/-- If the nodes fit at the end of every instant, no node is reported to exceed its buffer. -/
theorem InstantsFit.run_errors (h : v.InstantsFit) (hsorted : v.steps.Pairwise fun a b => a.relativeTime ≤ b.relativeTime)
    (hstart : v.FitSoFar v.start.nodes) : v.run.Ensures (fun e => e.exceedsBufferSize = false) fun _ => True := by
  let I : List SimulationStep → Replay → Prop := fun pre r => (v.replay v.start pre).result = .ok r ∧
    v.FitSoFar r.nodes ∧ ∀ last ∈ pre.getLast?, r.lastStepTime = last.relativeTime
  have hreplay : (v.replay v.start v.steps).Ensures (fun e => e.exceedsBufferSize = false) (I ([] ++ v.steps)) := by
    refine Tracked.Ensures.fold [] (fun pre step post r hsplit hr => ?_) ⟨rfl, hstart, by simp⟩
    obtain ⟨hr, hsofar, hlast⟩ := hr
    rw [List.nil_append] at hsplit
    have hfits : step.relativeTime ≠ r.lastStepTime → v.Fits r.nodes := by
      intro hne
      refine h pre (step :: post) hsplit (fun a ha b hb => ?_) r hr
      rw [hsplit, List.pairwise_append] at hsorted
      obtain ⟨hpre, hpost, hcross⟩ := hsorted
      have hb : step.relativeTime ≤ b.relativeTime := by
        rcases List.mem_cons.1 hb with rfl | hb
        · exact Nat.le_refl _
        · exact (List.pairwise_cons.1 hpost).1 b hb
      -- the last of the steps before is earlier, and none of them is later than that
      obtain ⟨init, last, rfl⟩ : ∃ init last, pre = init ++ [last] :=
        ⟨_, _, (List.dropLast_append_getLast (List.ne_nil_of_mem ha)).symm⟩
      have hlt : last.relativeTime < step.relativeTime := by
        have hle := hcross last (by simp) step (List.mem_cons_self ..)
        rw [hlast last (by simp)] at hne
        omega
      have hle : a.relativeTime ≤ last.relativeTime := by
        rcases List.mem_append.1 ha with ha | ha
        · exact (List.pairwise_append.1 hpre).2.2 a ha last (List.mem_singleton_self _)
        · rw [List.mem_singleton.1 ha]
      omega
    have hstep := replayStep_fits hfits hsofar
    refine ⟨hstep.errors, fun r' hr' => ⟨?_, (hstep.result r' hr').1, ?_⟩⟩
    · have hr : (v.replay v.start pre).Within (fun _ => True) r := ⟨hr, fun _ _ => trivial⟩
      exact (hr.fold_snoc ⟨hr', fun _ _ => trivial⟩).1
    · intro last hlast
      rw [List.getLast?_concat, Option.mem_some_iff] at hlast
      rw [← hlast]
      exact (hstep.result r' hr').2
  unfold run
  refine .bind hreplay fun r hr => ?_
  unfold finish
  split_ifs
  · have hfits : v.Fits r.nodes := h v.steps [] (by simp) (by simp [EndsInstant]) r hr.1
    exact (updateMaxBufferUsage_fits hfits hr.2.1).mono (fun e he => he.elim) fun _ _ => trivial
  · exact Tracked.ensures_pure trivial

end SimulationVerifier

end QuicWorkbench
