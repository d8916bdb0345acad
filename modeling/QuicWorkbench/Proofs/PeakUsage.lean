import QuicWorkbench.Proofs.History
import Mathlib.Order.Bounds.Basic

/-!
# The highest buffer usages

The verifier looks at the buffer usages when an instant ends, in a loop over the nodes that ends at the first one that
exceeds its buffer. A node that once exceeded its buffer ends the loop from then on. So the loop gets to a node as long
as none of the nodes before it has exceeded its buffer, and the highest usage of a node is the highest one over these
instants.
-/

namespace QuicWorkbench

/-- The node with the id: the last one, should several have it. -/
def NetworkSpec.nodeOf (spec : NetworkSpec) (id : String) : Option NetworkNodeSpec := spec.nodes.reverse.find? (·.id = id)

/-- An iteration over the nodes visits every one of them once. -/
structure NodeOrder (spec : NetworkSpec) (order : List String) : Prop where
  nodup : order.Nodup
  mem_iff : ∀ id, id ∈ order ↔ id ∈ spec.nodes.map NetworkNodeSpec.id

open SimulationVerifier (EndsInstant)

/-- The bytes in the buffer of the node at the ends of the instants of the log. -/
def instantUsages (steps : List SimulationStep) (nodeId : String) : Set Nat :=
  {b | ∃ before after, steps = before ++ after ∧ EndsInstant before after ∧ b = residentBytes before nodeId}

/-- None of the nodes has exceeded its buffer up to the end of the steps. -/
def FitUntil (spec : NetworkSpec) (nodeIds : List String) (steps : List SimulationStep) : Prop :=
  ∀ nodeId ∈ nodeIds, ∀ n ∈ spec.nodeOf nodeId, ∀ b ∈ instantUsages steps nodeId, b ≤ n.bufferSizeBytes

/-- The bytes in the buffer of the node at the ends of the instants at which none of the nodes `front` has exceeded its
buffer yet. -/
def seenUsages (spec : NetworkSpec) (steps : List SimulationStep) (front : List String) (nodeId : String) : Set Nat :=
  {b | ∃ before after, steps = before ++ after ∧ EndsInstant before after ∧ FitUntil spec front before ∧
    b = residentBytes before nodeId}

/-- The same without the end of the last instant. -/
def seenBefore (spec : NetworkSpec) (steps : List SimulationStep) (front : List String) (nodeId : String) : Set Nat :=
  {b | b = 0 ∨ ∃ before after, steps = before ++ after ∧ after ≠ [] ∧ EndsInstant before after ∧
    FitUntil spec front before ∧ b = residentBytes before nodeId}

section
variable {spec : NetworkSpec} {steps before after : List SimulationStep} {step : SimulationStep} {front : List String}
  {nodeId : String} {b : Nat}

theorem endsInstant_nil (steps : List SimulationStep) : EndsInstant steps [] := by simp [EndsInstant]

theorem nil_endsInstant (steps : List SimulationStep) : EndsInstant [] steps := by simp [EndsInstant]

theorem residentBytes_nil (nodeId : String) : residentBytes [] nodeId = 0 := rfl

theorem instantUsages_mono (h : EndsInstant before after) :
    instantUsages before nodeId ⊆ instantUsages (before ++ after) nodeId := by
  rintro b ⟨earlier, later, rfl, hends, rfl⟩
  refine ⟨earlier, later ++ after, by simp, fun a ha c hc => ?_, rfl⟩
  rcases List.mem_append.1 hc with hc | hc
  · exact hends a ha c hc
  · exact h a (List.mem_append_left _ ha) c hc

theorem FitUntil.mono (h : FitUntil spec front (before ++ after)) (hends : EndsInstant before after) :
    FitUntil spec front before := fun nodeId hmem n hn _ hb => h nodeId hmem n hn _ (instantUsages_mono hends hb)

theorem fitUntil_nil (spec : NetworkSpec) (front : List String) : FitUntil spec front [] := by
  rintro nodeId - n - b ⟨before, after, hnil, -, rfl⟩
  obtain ⟨rfl, -⟩ := List.append_eq_nil_iff.1 hnil.symm
  exact Nat.zero_le _

theorem fitUntil_append {front' : List String} :
    FitUntil spec (front ++ front') steps ↔ FitUntil spec front steps ∧ FitUntil spec front' steps := by
  simp only [FitUntil, List.mem_append, or_imp, forall_and]

theorem seenUsages_subset : seenUsages spec steps front nodeId ⊆ instantUsages steps nodeId := by
  rintro b ⟨before, after, hsplit, hends, -, rfl⟩
  exact ⟨before, after, hsplit, hends, rfl⟩

theorem mem_seenUsages : b ∈ seenUsages spec steps front nodeId ↔
    b ∈ seenBefore spec steps front nodeId ∨ FitUntil spec front steps ∧ b = residentBytes steps nodeId := by
  constructor
  · rintro ⟨before, after, rfl, hends, hfit, rfl⟩
    by_cases hafter : after = []
    · subst hafter
      rw [List.append_nil]
      exact .inr ⟨hfit, rfl⟩
    · exact .inl (.inr ⟨before, after, rfl, hafter, hends, hfit, rfl⟩)
  · rintro ((rfl | ⟨before, after, hsplit, -, hends, hfit, rfl⟩) | ⟨hfit, rfl⟩)
    · exact ⟨[], steps, rfl, nil_endsInstant steps, fitUntil_nil spec front, rfl⟩
    · exact ⟨before, after, hsplit, hends, hfit, rfl⟩
    · exact ⟨steps, [], by simp, endsInstant_nil steps, hfit, rfl⟩

theorem seenBefore_nil : seenBefore spec [] front nodeId = {0} := by
  ext b
  constructor
  · rintro (rfl | ⟨before, after, hnil, hafter, -⟩)
    · rfl
    · exact absurd (List.append_eq_nil_iff.1 hnil.symm).2 hafter
  · rintro rfl
    exact .inl rfl

/-- A step at a later time makes the end of the last instant one that was seen before. -/
theorem seenBefore_snoc_of_ends (h : EndsInstant steps [step]) :
    seenBefore spec (steps ++ [step]) front nodeId = seenUsages spec steps front nodeId := by
  ext b
  constructor
  · rintro (rfl | ⟨before, after, hsplit, hafter, hends, hfit, rfl⟩)
    · exact ⟨[], steps, rfl, nil_endsInstant steps, fitUntil_nil spec front, rfl⟩
    · obtain ⟨init, rfl, rfl⟩ : ∃ init, steps = before ++ init ∧ after = init ++ [step] := by
        rcases List.append_eq_append_iff.1 hsplit with ⟨init, hbefore, hstep⟩ | ⟨init, hsteps, hafter'⟩
        · obtain rfl : init = [] := by
            rcases List.append_eq_singleton_iff.1 hstep.symm with ⟨hnil, -⟩ | ⟨-, hnil⟩
            · exact hnil
            · exact absurd hnil hafter
          exact ⟨[], by simpa using hbefore.symm, by simpa using hstep.symm⟩
        · exact ⟨init, hsteps, hafter'⟩
      exact ⟨before, init, rfl, fun a ha c hc => hends a ha c (List.mem_append_left _ hc), hfit, rfl⟩
  · rintro ⟨before, after, rfl, hends, hfit, rfl⟩
    refine .inr ⟨before, after ++ [step], by simp, by simp, fun a ha c hc => ?_, hfit, rfl⟩
    rcases List.mem_append.1 hc with hc | hc
    · exact hends a ha c hc
    · exact h a (List.mem_append_left _ ha) c hc

theorem seenBefore_snoc_of_same (hsorted : (steps ++ [step]).Pairwise fun a b => a.relativeTime ≤ b.relativeTime)
    (h : ¬ EndsInstant steps [step]) :
    seenBefore spec (steps ++ [step]) front nodeId = seenBefore spec steps front nodeId := by
  ext b
  constructor
  · rintro (rfl | ⟨before, after, hsplit, hafter, hends, hfit, rfl⟩)
    · exact .inl rfl
    · rcases List.eq_nil_or_concat after with rfl | ⟨init, last, rfl⟩
      · exact absurd rfl hafter
      · rw [List.concat_eq_append, ← List.append_assoc] at hsplit
        obtain ⟨rfl, heq⟩ := List.append_inj' hsplit rfl
        obtain rfl := List.cons.inj heq |>.1
        rw [List.concat_eq_append] at hends
        have hinit : init ≠ [] := by
          rintro rfl
          exact h (by simpa using hends)
        exact .inr ⟨before, init, rfl, hinit, fun a ha c hc => hends a ha c (List.mem_append_left _ hc), hfit, rfl⟩
  · rintro (rfl | ⟨before, after, rfl, hafter, hends, hfit, rfl⟩)
    · exact .inl rfl
    · refine .inr ⟨before, after ++ [step], by simp, by simp, fun a ha c hc => ?_, hfit, rfl⟩
      rcases List.mem_append.1 hc with hc | hc
      · exact hends a ha c hc
      · obtain ⟨d, hd⟩ := List.exists_mem_of_ne_nil _ hafter
        have hlt := hends a ha d hd
        have hle := (List.pairwise_append.1 hsorted).2.2 d (List.mem_append_right _ hd) c hc
        omega

theorem seenUsages_of_fit (h : FitUntil spec front steps) :
    seenUsages spec steps front nodeId = instantUsages steps nodeId := by
  refine Set.Subset.antisymm seenUsages_subset ?_
  rintro b ⟨before, after, rfl, hends, rfl⟩
  exact ⟨before, after, rfl, hends, h.mono hends, rfl⟩

theorem seenUsages_of_not_fit (h : ¬ FitUntil spec front steps) :
    seenUsages spec steps front nodeId = seenBefore spec steps front nodeId := by
  ext b
  rw [mem_seenUsages]
  simp [h]

theorem isGreatest_updated {peak : Nat} (h : IsGreatest (seenBefore spec steps front nodeId) peak)
    (hfit : FitUntil spec front steps) :
    IsGreatest (seenUsages spec steps front nodeId) (max (residentBytes steps nodeId) peak) := by
  constructor
  · rw [mem_seenUsages]
    rcases Nat.le_total (residentBytes steps nodeId) peak with hle | hle
    · rw [Nat.max_eq_right hle]
      exact .inl h.1
    · rw [Nat.max_eq_left hle]
      exact .inr ⟨hfit, rfl⟩
  · intro b hb
    rcases mem_seenUsages.1 hb with hb | ⟨-, rfl⟩
    · exact (h.2 hb).trans (Nat.le_max_right ..)
    · exact Nat.le_max_left ..

end

namespace SimulationVerifier
variable {v : SimulationVerifier} {P : NonFatalError → Prop} {order front back : List String} {nodeId : String}
  {nodes nodes' : HashMap String ReplayedNode} {n : ReplayedNode}

/-! ### The loop -/

theorem updateMaxBufferUsageLoop_of_some (hn : nodes.lookup nodeId = some n) :
    (v.updateMaxBufferUsageLoop (nodeId :: order) nodes).Within P nodes' ↔
      ∃ m, v.nodeMetadata.lookup nodeId = some m ∧
        if m.bufferSizeBytes < n.updateMaxBufferUsage.maxBufferUsage then
          P (.nodeExceedsBufferSize nodeId m.bufferSizeBytes n.updateMaxBufferUsage.maxBufferUsage) ∧
            nodes' = nodes.insert nodeId n.updateMaxBufferUsage
        else (v.updateMaxBufferUsageLoop order (nodes.insert nodeId n.updateMaxBufferUsage)).Within P nodes' := by
  rw [updateMaxBufferUsageLoop, hn]
  simp only [Tracked.within_bind_iff, within_unwrap_iff]
  refine exists_congr fun m => and_congr_right fun _ => ?_
  split_ifs
  · simp only [Tracked.within_bind_iff, Tracked.within_track_iff, exists_const, Tracked.within_pure_iff, eq_comm (b := nodes')]
  · rfl

theorem updateMaxBufferUsageLoop_of_none (hn : nodes.lookup nodeId = none) :
    v.updateMaxBufferUsageLoop (nodeId :: order) nodes = v.updateMaxBufferUsageLoop order nodes := by
  rw [updateMaxBufferUsageLoop, hn]

theorem updateMaxBufferUsageLoop_frame (h : (v.updateMaxBufferUsageLoop order nodes).Within P nodes')
    (hnot : nodeId ∉ order) : nodes'.lookup nodeId = nodes.lookup nodeId := by
  induction order generalizing nodes with
  | nil =>
    obtain rfl := (Tracked.within_pure_iff (P := P)).1 h
    rfl
  | cons id order ih =>
    obtain ⟨hne, hnot⟩ := not_or.1 (mt List.mem_cons.2 hnot)
    cases hn : nodes.lookup id with
    | none =>
      rw [updateMaxBufferUsageLoop_of_none hn] at h
      exact ih h hnot
    | some n =>
      obtain ⟨m, -, h⟩ := (updateMaxBufferUsageLoop_of_some hn).1 h
      split_ifs at h
      · rw [h.2, AList.lookup_insert_ne hne]
      · rw [ih h hnot, AList.lookup_insert_ne hne]

/-- The usages of the nodes fit their buffers, once they are updated. -/
def UpdatedFit (v : SimulationVerifier) (nodeIds : List String) (nodes : HashMap String ReplayedNode) : Prop :=
  ∀ nodeId ∈ nodeIds, ∀ n ∈ nodes.lookup nodeId, ∀ m ∈ v.nodeMetadata.lookup nodeId,
    n.updateMaxBufferUsage.maxBufferUsage ≤ m.bufferSizeBytes

/-- What the loop makes of a node that comes after the nodes `front`. -/
structure LoopVisit (v : SimulationVerifier) (P : NonFatalError → Prop) (front : List String) (nodeId : String)
    (nodes nodes' : HashMap String ReplayedNode) : Prop where
  reached : v.UpdatedFit front nodes → ∀ n ∈ nodes.lookup nodeId, nodes'.lookup nodeId = some n.updateMaxBufferUsage ∧
    ∀ m ∈ v.nodeMetadata.lookup nodeId, m.bufferSizeBytes < n.updateMaxBufferUsage.maxBufferUsage →
      P (.nodeExceedsBufferSize nodeId m.bufferSizeBytes n.updateMaxBufferUsage.maxBufferUsage)
  missed : ¬ v.UpdatedFit front nodes → nodes'.lookup nodeId = nodes.lookup nodeId

theorem updateMaxBufferUsageLoop_visit (h : (v.updateMaxBufferUsageLoop (front ++ nodeId :: back) nodes).Within P nodes')
    (hnodup : (front ++ nodeId :: back).Nodup) : LoopVisit v P front nodeId nodes nodes' := by
  induction front generalizing nodes with
  | nil =>
    obtain ⟨hnot, -⟩ := List.nodup_cons.1 hnodup
    refine ⟨fun _ n hn => ?_, fun hmissed => absurd (by simp [UpdatedFit]) hmissed⟩
    obtain ⟨m, hm, h⟩ := (updateMaxBufferUsageLoop_of_some hn).1 h
    rw [hm]
    split_ifs at h with hexceeds
    · refine ⟨by rw [h.2, AList.lookup_insert], ?_⟩
      rintro m ⟨⟩ -
      exact h.1
    · refine ⟨by rw [updateMaxBufferUsageLoop_frame h hnot, AList.lookup_insert], ?_⟩
      rintro m ⟨⟩ hlt
      exact absurd hlt hexceeds
  | cons id front ih =>
    obtain ⟨hnot, hnodup⟩ := List.nodup_cons.1 hnodup
    rw [List.cons_append] at h
    cases hn : nodes.lookup id with
    | none =>
      rw [updateMaxBufferUsageLoop_of_none hn] at h
      have hfit : v.UpdatedFit (id :: front) nodes ↔ v.UpdatedFit front nodes := by simp [UpdatedFit, hn]
      have hvisit := ih h hnodup
      exact ⟨fun hreached => hvisit.reached (hfit.1 hreached), fun hmissed => hvisit.missed (hmissed ∘ hfit.2)⟩
    | some n =>
      obtain ⟨m, hm, h⟩ := (updateMaxBufferUsageLoop_of_some hn).1 h
      have hne : nodeId ≠ id := by
        rintro rfl
        exact hnot (by simp)
      split_ifs at h with hexceeds
      · -- the loop ends here
        refine ⟨fun hreached => ?_, fun _ => by rw [h.2, AList.lookup_insert_ne hne]⟩
        exact absurd (hreached id (List.mem_cons_self ..) n hn m hm) (Nat.not_le.2 hexceeds)
      · have hvisit := ih h hnodup
        have hother : ∀ a ∈ front, (nodes.insert id n.updateMaxBufferUsage).lookup a = nodes.lookup a := by
          intro a ha
          refine AList.lookup_insert_ne fun heq => hnot ?_
          exact heq ▸ List.mem_append_left _ ha
        have hfit : v.UpdatedFit (id :: front) nodes ↔ v.UpdatedFit front (nodes.insert id n.updateMaxBufferUsage) := by
          constructor
          · intro hfit a ha k hk
            exact hfit a (List.mem_cons_of_mem _ ha) k (hother a ha ▸ hk)
          · intro hfit a ha k hk m' hm'
            rcases List.mem_cons.1 ha with rfl | ha
            · obtain rfl := Option.some.inj (hn.symm.trans hk)
              obtain rfl := Option.some.inj (hm.symm.trans hm')
              exact Nat.not_lt.1 hexceeds
            · exact hfit a ha k ((hother a ha).symm ▸ hk) m' hm'
        have hsame : (nodes.insert id n.updateMaxBufferUsage).lookup nodeId = nodes.lookup nodeId := AList.lookup_insert_ne hne
        exact ⟨fun hreached k hk => hvisit.reached (hfit.1 hreached) k (hsame.symm ▸ hk),
          fun hmissed => (hvisit.missed (hmissed ∘ hfit.2)).trans hsame⟩

/-! ### Along a replay -/

variable {spec : NetworkSpec} {steps : List SimulationStep} {step : SimulationStep} {r r' : Replay}

/-- The highest usages of the nodes are those that were seen, and those that exceed a buffer are reported. -/
structure Peaks (spec : NetworkSpec) (P : NonFatalError → Prop) (order : List String) (seen : List String → String → Set Nat)
    (nodes : HashMap String ReplayedNode) : Prop where
  isSome : ∀ nodeId ∈ order, (nodes.lookup nodeId).isSome
  greatest : ∀ front nodeId back, order = front ++ nodeId :: back → ∀ n ∈ nodes.lookup nodeId,
    IsGreatest (seen front nodeId) n.maxBufferUsage
  reported : ∀ front nodeId back, order = front ++ nodeId :: back → ∀ n ∈ spec.nodeOf nodeId, ∀ b ∈ seen front nodeId,
    n.bufferSizeBytes < b → ∃ usage, P (.nodeExceedsBufferSize nodeId n.bufferSizeBytes usage)

/-- The sizes that the verifier knows are those of the nodes. -/
def KnowsSizes (v : SimulationVerifier) (spec : NetworkSpec) : Prop :=
  ∀ id, v.nodeMetadata.lookup id = (spec.nodeOf id).map fun n => ⟨n.bufferSizeBytes⟩

/-- The nodes fit their buffers, with their updated usages, exactly if they have all along. -/
theorem Peaks.updatedFit_iff (h : Peaks spec P order (seenBefore spec steps) nodes) (hsizes : v.KnowsSizes spec)
    (husage : ∀ id n, nodes.lookup id = some n → n.bufferUsage = residentBytes steps id) (horder : order = front ++ back) :
    v.UpdatedFit front nodes ↔ FitUntil spec front steps := by
  induction front using List.reverseRecOn generalizing back with
  | nil => simp [UpdatedFit, FitUntil]
  | append_singleton front nodeId ih =>
    rw [List.append_assoc] at horder
    have hsplit : v.UpdatedFit (front ++ [nodeId]) nodes ↔ v.UpdatedFit front nodes ∧ v.UpdatedFit [nodeId] nodes := by
      simp only [UpdatedFit, List.mem_append, or_imp, forall_and]
    rw [hsplit, fitUntil_append, ih horder]
    refine and_congr_right fun hfit => ?_
    obtain ⟨n, hn⟩ := Option.isSome_iff_exists.1 (h.isSome nodeId (by simp [horder]))
    have hpeak := isGreatest_updated (h.greatest front nodeId back horder n hn) hfit
    rw [seenUsages_of_fit hfit, ← husage nodeId n hn] at hpeak
    constructor
    · intro hupdated id hid node hnode b hb
      obtain rfl := List.mem_singleton.1 hid
      exact (hpeak.2 hb).trans (hupdated id hid n hn ⟨node.bufferSizeBytes⟩ (by rw [hsizes, hnode]; rfl))
    · intro hfit id hid k hk m hm
      obtain rfl := List.mem_singleton.1 hid
      obtain rfl := Option.some.inj (hn.symm.trans hk)
      obtain ⟨node, hnode, rfl⟩ := Option.map_eq_some_iff.1 ((hsizes id).symm.trans hm)
      exact hfit id hid node hnode _ hpeak.1

theorem Peaks.update (h : Peaks spec P order (seenBefore spec steps) nodes) (hsizes : v.KnowsSizes spec) (hnodup : order.Nodup)
    (husage : ∀ id n, nodes.lookup id = some n → n.bufferUsage = residentBytes steps id)
    (hloop : (v.updateMaxBufferUsageLoop order nodes).Within P nodes') : Peaks spec P order (seenUsages spec steps) nodes' := by
  have hvisit : ∀ front nodeId back, order = front ++ nodeId :: back → LoopVisit v P front nodeId nodes nodes' := by
    rintro front nodeId back rfl
    exact updateMaxBufferUsageLoop_visit hloop hnodup
  constructor
  case isSome =>
    intro nodeId hmem
    obtain ⟨front, back, horder⟩ := List.append_of_mem hmem
    obtain ⟨n, hn⟩ := Option.isSome_iff_exists.1 (h.isSome nodeId hmem)
    by_cases hfit : v.UpdatedFit front nodes
    · rw [((hvisit front nodeId back horder).reached hfit n hn).1]
      rfl
    · rw [(hvisit front nodeId back horder).missed hfit, hn]
      rfl
  case greatest =>
    intro front nodeId back horder n' hn'
    obtain ⟨n, hn⟩ := Option.isSome_iff_exists.1 (h.isSome nodeId (by simp [horder]))
    have hpeak := h.greatest front nodeId back horder n hn
    by_cases hfit : v.UpdatedFit front nodes
    · rw [((hvisit front nodeId back horder).reached hfit n hn).1] at hn'
      obtain rfl := Option.some.inj hn'
      have hupdated := isGreatest_updated hpeak ((h.updatedFit_iff hsizes husage horder).1 hfit)
      rwa [← husage nodeId n hn] at hupdated
    · rw [(hvisit front nodeId back horder).missed hfit, hn] at hn'
      obtain rfl := Option.some.inj hn'
      rwa [seenUsages_of_not_fit fun hfit' => hfit ((h.updatedFit_iff hsizes husage horder).2 hfit')]
  case reported =>
    intro front nodeId back horder n hn b hb hlt
    rcases mem_seenUsages.1 hb with hb | ⟨hfit, rfl⟩
    · exact h.reported front nodeId back horder n hn b hb hlt
    · obtain ⟨k, hk⟩ := Option.isSome_iff_exists.1 (h.isSome nodeId (by simp [horder]))
      have hfit := (h.updatedFit_iff hsizes husage horder).2 hfit
      have hm : v.nodeMetadata.lookup nodeId = some ⟨n.bufferSizeBytes⟩ := by
        rw [hsizes, hn]
        rfl
      have hexceeds : n.bufferSizeBytes < k.updateMaxBufferUsage.maxBufferUsage := by
        rw [← husage nodeId k hk] at hlt
        exact hlt.trans_le (Nat.le_max_left ..)
      exact ⟨_, ((hvisit front nodeId back horder).reached hfit k hk).2 _ hm hexceeds⟩

theorem replayKind_times {now : Nat} {kind : SimulationStepKind} (h : (v.replayKind r now kind).Within P r') :
    r'.lastStepTime = r.lastStepTime ∧ r'.lastBufferUsageUpdate = r.lastBufferUsageUpdate := by
  cases kind with
  | packetInNode s =>
    cases hf : r.inFlightPackets.lookup s.packetId with
    | some f =>
      obtain ⟨metadata, link, n, n', -, -, -, -, -, -, -, -, rfl⟩ := (packetInNode_within_iff_of_inFlight hf).1 h
      exact ⟨rfl, rfl⟩
    | none =>
      obtain ⟨n, n', -, -, -, rfl⟩ := (packetInNode_within_iff_of_created hf).1 h
      exact ⟨rfl, rfl⟩
  | packetDuplicated s =>
    obtain ⟨n, n', -, -, rfl⟩ := packetDuplicated_within_iff.1 h
    exact ⟨rfl, rfl⟩
  | packetDropped s =>
    obtain ⟨n, n', -, -, rfl⟩ := packetDropped_within_iff.1 h
    exact ⟨rfl, rfl⟩
  | packetLostInTransit s =>
    obtain ⟨inFlightPackets, statsByLink, rfl⟩ := exists_of_packetLostInTransit h
    exact ⟨rfl, rfl⟩
  | packetExtraDelay s =>
    obtain ⟨n, n', -, -, rfl⟩ := packetExtraDelay_within_iff.1 h
    exact ⟨rfl, rfl⟩
  | packetCongestionEvent s =>
    obtain ⟨n, -, rfl⟩ := packetCongestionEvent_within_iff.1 h
    exact ⟨rfl, rfl⟩
  | packetInTransit s =>
    obtain ⟨n, packet, n', metadata, link, link', usage, -, -, -, -, -, -, -, -, rfl⟩ := packetInTransit_within_iff.1 h
    exact ⟨rfl, rfl⟩
  | packetDeliveredToApplication s =>
    obtain ⟨n, n', -, -, rfl⟩ := packetDeliveredToApplication_within_iff.1 h
    exact ⟨rfl, rfl⟩
  | networkEvent e =>
    obtain ⟨links, ⟨-, rfl⟩ | ⟨payload, n, -, -, rfl⟩⟩ := exists_of_networkEvent h
    · exact ⟨rfl, rfl⟩
    · exact ⟨rfl, rfl⟩

/-- The time of the last step. -/
def lastTime (steps : List SimulationStep) : Nat := (steps.getLast?.map SimulationStep.relativeTime).getD 0

theorem lastTime_snoc (steps : List SimulationStep) (step : SimulationStep) :
    lastTime (steps ++ [step]) = step.relativeTime := by simp [lastTime]

theorem le_lastTime (hsorted : steps.Pairwise fun a b => a.relativeTime ≤ b.relativeTime) (hstep : step ∈ steps) :
    step.relativeTime ≤ lastTime steps := by
  rcases List.eq_nil_or_concat steps with rfl | ⟨init, last, rfl⟩
  · simp at hstep
  · rw [List.concat_eq_append] at hsorted hstep ⊢
    rw [lastTime_snoc]
    rcases List.mem_append.1 hstep with hstep | hstep
    · exact (List.pairwise_append.1 hsorted).2.2 step hstep last (by simp)
    · rw [List.mem_singleton.1 hstep]

theorem seenBefore_snoc (hsorted : (steps ++ [step]).Pairwise fun a b => a.relativeTime ≤ b.relativeTime) :
    seenBefore spec (steps ++ [step]) front nodeId =
      if step.relativeTime ≠ lastTime steps then seenUsages spec steps front nodeId else seenBefore spec steps front nodeId := by
  obtain ⟨hsteps, -, hstep⟩ := List.pairwise_append.1 hsorted
  split_ifs with htime
  · refine seenBefore_snoc_of_ends fun a ha c hc => ?_
    obtain rfl := List.mem_singleton.1 hc
    rcases List.eq_nil_or_concat steps with rfl | ⟨init, last, rfl⟩
    · simp at ha
    · rw [List.concat_eq_append] at hsteps hstep ha htime
      have hle := le_lastTime hsteps ha
      rw [lastTime_snoc] at hle htime
      have hlast := hstep last (by simp) c (by simp)
      omega
  · rcases List.eq_nil_or_concat steps with rfl | ⟨init, last, rfl⟩
    · rw [seenBefore_snoc_of_ends (nil_endsInstant _)]
      ext b
      rw [mem_seenUsages, seenBefore_nil, residentBytes_nil]
      simp
    · refine seenBefore_snoc_of_same hsorted fun hends => ?_
      rw [List.concat_eq_append] at hends htime
      rw [lastTime_snoc] at htime
      have := hends last (by simp) step (by simp)
      omega

/-- What the verifier knows of the usages along a replay. -/
structure PeaksAlong (spec : NetworkSpec) (P : NonFatalError → Prop) (order : List String) (steps : List SimulationStep)
    (r : Replay) : Prop where
  peaks : Peaks spec P order (seenBefore spec steps) r.nodes
  lastStepTime : r.lastStepTime = lastTime steps
  notUpdated : ∀ t ∈ r.lastBufferUsageUpdate, t < r.lastStepTime

theorem Peaks.visit {seen : List String → String → Set Nat} {inFlight : Uuid → Bool} {kind : SimulationStepKind} {now : Nat}
    (h : Peaks spec P order seen nodes) (hvisit : NodesVisit inFlight kind now nodes nodes') :
    Peaks spec P order seen nodes' := by
  refine ⟨fun id hid => (hvisit.isSome_iff id).2 (h.isSome id hid), fun front id back horder n' hn' => ?_, h.reported⟩
  obtain ⟨n, hn, hcases⟩ := hvisit.origin hn'
  have hsame : n'.maxBufferUsage = n.maxBufferUsage := by
    rcases hcases with ⟨-, hvisit⟩ | ⟨-, rfl⟩
    · exact hvisit.maxBufferUsage
    · rfl
  rw [hsame]
  exact h.greatest front id back horder n hn

theorem advanceTime_within {time : Nat} : (v.advanceTime r time).Within P r' ↔
    if time ≠ r.lastStepTime then ∃ nodes, (v.updateMaxBufferUsageLoop v.nodeOrder r.nodes).Within P nodes ∧
      r' = { r with nodes, lastBufferUsageUpdate := some r.lastStepTime, lastStepTime := time }
    else r' = r := by
  unfold advanceTime updateMaxBufferUsage
  split_ifs
  · simp only [Tracked.within_bind_iff, Tracked.within_pure_iff]
    constructor
    · rintro ⟨r₁, ⟨nodes, hnodes, rfl⟩, rfl⟩
      exact ⟨nodes, hnodes, rfl⟩
    · rintro ⟨nodes, hnodes, rfl⟩
      exact ⟨_, ⟨nodes, hnodes, rfl⟩, rfl⟩
  · rw [Tracked.within_pure_iff, eq_comm]

/-- The nodes of a verifier that has not replayed anything yet, and what it knows of them. -/
structure Fresh (v : SimulationVerifier) (spec : NetworkSpec) : Prop where
  nodes : ∀ id n, v.nodes.lookup id = some n → n = .new id
  isSome : ∀ id ∈ v.nodeOrder, (v.nodes.lookup id).isSome
  sizes : v.KnowsSizes spec
  nodup : v.nodeOrder.Nodup

theorem peaksAlong_replay (hfresh : v.Fresh spec) (hsorted : steps.Pairwise fun a b => a.relativeTime ≤ b.relativeTime)
    (h : (v.replay v.start steps).Within P r) : PeaksAlong spec P v.nodeOrder steps r := by
  induction steps using List.reverseRecOn generalizing r with
  | nil =>
    obtain rfl := (Tracked.within_pure_iff (P := P)).1 h
    refine ⟨⟨hfresh.isSome, fun front id back horder n hn => ?_, fun front id back horder n hn b hb hlt => ?_⟩, rfl, ?_⟩
    · rw [seenBefore_nil, hfresh.nodes id n hn]
      exact isGreatest_singleton
    · rw [seenBefore_nil, Set.mem_singleton_iff] at hb
      omega
    · simp [start]
  | append_singleton steps step ih =>
    obtain ⟨hsteps, -, hstep⟩ := List.pairwise_append.1 hsorted
    obtain ⟨r₀, h₀, hlast⟩ := Tracked.within_fold_append.1 h
    have hreplayed : (v.replayStep r₀ step).Within P r := Tracked.within_fold_singleton.1 hlast
    obtain ⟨r₁, hadvance, hkind⟩ := Tracked.within_bind_iff.1 hreplayed
    have hpeaks := ih hsteps h₀
    have hvisit := replayKind_visits hkind
    obtain ⟨htime, hupdate⟩ := replayKind_times hkind
    rw [advanceTime_within, hpeaks.lastStepTime] at hadvance
    split_ifs at hadvance with hlater
    · obtain ⟨nodes, hnodes, rfl⟩ := hadvance
      have husage : ∀ id n, r₀.nodes.lookup id = some n → n.bufferUsage = residentBytes steps id :=
        fun id n hn => (node_history hfresh.nodes h₀ id n hn).bufferUsage
      have hupdated := hpeaks.peaks.update hfresh.sizes hfresh.nodup husage hnodes
      have hseen : seenBefore spec (steps ++ [step]) = seenUsages spec steps := by
        funext front id
        rw [seenBefore_snoc hsorted, if_pos hlater]
      refine ⟨hseen ▸ hupdated.visit hvisit, htime.trans (lastTime_snoc steps step).symm, ?_⟩
      rw [hupdate, htime]
      rintro t ⟨⟩
      rcases List.eq_nil_or_concat steps with rfl | ⟨init, last, rfl⟩
      · exact Nat.pos_of_ne_zero hlater
      · rw [List.concat_eq_append] at hstep hlater ⊢
        rw [lastTime_snoc] at hlater ⊢
        exact lt_of_le_of_ne (hstep last (by simp) step (by simp)) hlater.symm
    · subst hadvance
      have hseen : seenBefore spec (steps ++ [step]) = seenBefore spec steps := by
        funext front id
        rw [seenBefore_snoc hsorted, if_neg hlater]
      refine ⟨hseen ▸ hpeaks.peaks.visit hvisit, ?_, ?_⟩
      · rw [htime, hpeaks.lastStepTime, lastTime_snoc, not_not.1 hlater]
      · rw [hupdate, htime]
        exact hpeaks.notUpdated

theorem peaks_run (hfresh : v.Fresh spec) (hsorted : v.steps.Pairwise fun a b => a.relativeTime ≤ b.relativeTime)
    (h : v.run.Within P r) : Peaks spec P v.nodeOrder (seenUsages spec v.steps) r.nodes := by
  obtain ⟨r₀, h₀, hfinish⟩ := Tracked.within_bind_iff.1 h
  have hpeaks := peaksAlong_replay hfresh hsorted h₀
  have hnot : r₀.lastBufferUsageUpdate ≠ some r₀.lastStepTime := fun heq => Nat.lt_irrefl _ (hpeaks.notUpdated _ heq)
  rw [finish, if_pos hnot] at hfinish
  obtain ⟨nodes, hnodes, hr⟩ := Tracked.within_bind_iff.1 hfinish
  obtain rfl := Tracked.within_pure_iff.1 hr
  exact hpeaks.peaks.update hfresh.sizes hfresh.nodup
    (fun id n hn => (node_history hfresh.nodes h₀ id n hn).bufferUsage) hnodes

/-! ### Verified logs -/

variable {order : List String} {verified : VerifiedSimulation}

theorem nodeOf_isSome {id : String} (h : id ∈ spec.nodes.map NetworkNodeSpec.id) : ∃ n, spec.nodeOf id = some n := by
  obtain ⟨n, hn, hid⟩ := List.mem_map.1 h
  exact Option.isSome_iff_exists.1 (List.find?_isSome.2 ⟨n, List.mem_reverse.2 hn, by simpa using hid⟩)

theorem id_mem_of_nodeOf {id : String} {n : NetworkNodeSpec} (h : spec.nodeOf id = some n) :
    id ∈ spec.nodes.map NetworkNodeSpec.id := by
  refine List.mem_map.2 ⟨n, List.mem_reverse.1 (List.mem_of_find?_eq_some h), ?_⟩
  simpa using List.find?_some h

theorem new_knowsSizes (h : SimulationVerifier.new order steps spec = .ok v) : v.KnowsSizes spec := by
  obtain ⟨ipToNode, -, metadata, -, rfl⟩ := new_eq_ok_iff.1 h
  intro id
  refine (AList.lookup_foldl_insert NetworkNodeSpec.id (fun node => (⟨node.bufferSizeBytes⟩ : NodeMetadata)) spec.nodes ∅ id).trans ?_
  rw [AList.lookup_empty, Option.or_none]
  rfl

theorem new_nodeOrder (h : SimulationVerifier.new order steps spec = .ok v) : v.nodeOrder = order := by
  obtain ⟨ipToNode, -, metadata, -, rfl⟩ := new_eq_ok_iff.1 h
  rfl

theorem new_fresh (h : SimulationVerifier.new order steps spec = .ok v) (horder : NodeOrder spec order) : v.Fresh spec := by
  have htables := new_tables h
  have hnodes := new_nodeOrder h
  refine ⟨htables.new_node, fun id hid => ?_, new_knowsSizes h, hnodes ▸ horder.nodup⟩
  rw [(htables.nodes id (.new id)).2 ⟨(horder.mem_iff id).1 (hnodes ▸ hid), rfl⟩]
  rfl

theorem lookup_statsByNode (r : Replay) (nodeId : String) :
    (simulationStats r).statsByNode.lookup nodeId = (r.nodes.lookup nodeId).map ReplayedNode.stats :=
  AList.lookup_foldl_entries ReplayedNode.stats r.nodes nodeId

end SimulationVerifier

/-- The statistics have the highest usage of every node, and every node whose usage exceeds its buffer is reported. -/
structure PeaksReported (spec : NetworkSpec) (steps : List SimulationStep) (verified : VerifiedSimulation) : Prop where
  peaks : ∀ nodeId n, spec.nodeOf nodeId = some n → ∃ stats, verified.stats.statsByNode.lookup nodeId = some stats ∧
    IsGreatest (instantUsages steps nodeId) stats.maxBufferUsage
  reported : ∀ nodeId n, spec.nodeOf nodeId = some n → ∀ b ∈ instantUsages steps nodeId, n.bufferSizeBytes < b →
    ∃ usage, .nodeExceedsBufferSize nodeId n.bufferSizeBytes usage ∈ verified.nonFatalErrors

/-- Every node gets to its highest usage before any of the nodes that come before it in the iteration exceeds its
buffer. -/
def PeaksSeen (spec : NetworkSpec) (order : List String) (steps : List SimulationStep) : Prop :=
  ∀ front nodeId back, order = front ++ nodeId :: back → ∀ b ∈ instantUsages steps nodeId,
    ∃ b' ∈ seenUsages spec steps front nodeId, b ≤ b'

/-- The highest usages are right, and all nodes that exceed their buffers are reported, exactly if every node gets to
its highest usage before the nodes that come before it exceed their buffers. -/
theorem peaksReported_iff {spec : NetworkSpec} {steps : List SimulationStep} {order : List String} {v : SimulationVerifier}
    {verified : VerifiedSimulation} (hnew : SimulationVerifier.new order steps spec = .ok v) (horder : NodeOrder spec order)
    (hv : v.verify = some (.ok verified)) : PeaksReported spec v.steps verified ↔ PeaksSeen spec order v.steps := by
  obtain ⟨r, hr, hstats⟩ := SimulationVerifier.within_of_verify hv
  have hpeaks := SimulationVerifier.peaks_run (SimulationVerifier.new_fresh hnew horder)
    (SimulationVerifier.new_tables hnew).sorted hr
  rw [SimulationVerifier.new_nodeOrder hnew] at hpeaks
  have hlookup : ∀ front nodeId back, order = front ++ nodeId :: back → ∃ n, r.nodes.lookup nodeId = some n ∧
      verified.stats.statsByNode.lookup nodeId = some n.stats ∧
      IsGreatest (seenUsages spec v.steps front nodeId) n.maxBufferUsage := by
    intro front nodeId back hsplit
    obtain ⟨n, hn⟩ := Option.isSome_iff_exists.1 (hpeaks.isSome nodeId (by simp [hsplit]))
    refine ⟨n, hn, ?_, hpeaks.greatest front nodeId back hsplit n hn⟩
    rw [hstats, SimulationVerifier.lookup_statsByNode, hn]
    rfl
  constructor
  · intro h front nodeId back hsplit b hb
    obtain ⟨n, -, hlookup, hseen⟩ := hlookup front nodeId back hsplit
    obtain ⟨spec, hspec⟩ := SimulationVerifier.nodeOf_isSome ((horder.mem_iff nodeId).1 (by simp [hsplit]))
    obtain ⟨stats, hstats, hgreatest⟩ := h.peaks nodeId spec hspec
    obtain rfl := Option.some.inj (hlookup.symm.trans hstats)
    exact ⟨_, hseen.1, hgreatest.2 hb⟩
  · intro h
    have hsplit : ∀ nodeId n, spec.nodeOf nodeId = some n → ∃ front back, order = front ++ nodeId :: back := by
      intro nodeId n hn
      exact List.append_of_mem ((horder.mem_iff nodeId).2 (SimulationVerifier.id_mem_of_nodeOf hn))
    constructor
    · intro nodeId n hn
      obtain ⟨front, back, hsplit⟩ := hsplit nodeId n hn
      obtain ⟨n, -, hlookup, hseen⟩ := hlookup front nodeId back hsplit
      refine ⟨n.stats, hlookup, seenUsages_subset hseen.1, fun b hb => ?_⟩
      obtain ⟨b', hb', hle⟩ := h front nodeId back hsplit b hb
      exact hle.trans (hseen.2 hb')
    · intro nodeId n hn b hb hlt
      obtain ⟨front, back, hsplit⟩ := hsplit nodeId n hn
      obtain ⟨b', hb', hle⟩ := h front nodeId back hsplit b hb
      exact hpeaks.reported front nodeId back hsplit n hn b' hb' (hlt.trans_le hle)

theorem FitUntil.peaksSeen {spec : NetworkSpec} {order : List String} {steps : List SimulationStep}
    (h : FitUntil spec order steps) : PeaksSeen spec order steps := by
  rintro front nodeId back rfl b hb
  rw [seenUsages_of_fit (fitUntil_append.1 h).1]
  exact ⟨b, hb, Nat.le_refl b⟩

theorem hostPair_nodeOrder : NodeOrder (hostPair 8000000 0) ["A", "B"] := ⟨by decide, fun _ => Iff.rfl⟩

/-- The packet of host `A` fits its buffer, so the highest usages are right. -/
theorem peaksReported_hostPair : ∃ v verified, SimulationVerifier.new ["A", "B"] [createdAt "A" 1] (hostPair 8000000 0) = .ok v ∧
    v.verify = some (.ok verified) ∧ PeaksReported (hostPair 8000000 0) v.steps verified := by
  obtain ⟨v, verified, hnew, hv, -⟩ := SimulationVerifier.exists_verified (hostPair 8000000 0) ["A", "B"]
    [createdAt "A" 1] (·.nonFatalErrors = []) (by decide +kernel)
  refine ⟨v, verified, hnew, hv, (peaksReported_iff hnew hostPair_nodeOrder hv).2 (FitUntil.peaksSeen ?_)⟩
  rw [(SimulationVerifier.new_tables hnew).steps]
  rintro nodeId hmem n hn b ⟨before, after, hsplit, -, rfl⟩
  have hbefore : before = [] ∨ before = [createdAt "A" 1] := by
    rcases List.append_eq_singleton_iff.1 hsplit.symm with ⟨hbefore, -⟩ | ⟨hbefore, -⟩
    · exact .inl hbefore
    · exact .inr hbefore
  have hcases : ∀ nodeId ∈ ["A", "B"], ∀ n ∈ (hostPair 8000000 0).nodeOf nodeId,
      residentBytes [] nodeId ≤ n.bufferSizeBytes ∧ residentBytes [createdAt "A" 1] nodeId ≤ n.bufferSizeBytes := by
    decide +kernel
  rcases hbefore with rfl | rfl
  · exact (hcases nodeId hmem n hn).1
  · exact (hcases nodeId hmem n hn).2

/-- A packet is created that is larger than the buffer of the node. -/
def oversizedAt (nodeId : String) (packetId : Uuid) : SimulationStep :=
  { relativeTime := 0
    kind := .packetInNode { packetId, packetNumber := 0, packetSizeBytes := 1500, nodeId, droppedOnArrival := false } }

/-- Hosts `A` and `B` exceed their buffers at once: only `A` is reported, and the highest usage of `B` stays zero. -/
theorem second_peak_unseen : ∃ v verified,
    SimulationVerifier.new ["A", "B"] [oversizedAt "A" 1, oversizedAt "B" 2] (hostPair 8000000 0) = .ok v ∧
    NodeOrder (hostPair 8000000 0) ["A", "B"] ∧ v.verify = some (.ok verified) ∧
    (verified.stats.statsByNode.lookup "B").map (·.maxBufferUsage) = some 0 ∧ 1500 ∈ instantUsages v.steps "B" ∧
    verified.nonFatalErrors = [.nodeExceedsBufferSize "A" 1000 1500] ∧
    ¬ PeaksReported (hostPair 8000000 0) v.steps verified := by
  obtain ⟨v, verified, hnew, hv, hresult⟩ := SimulationVerifier.exists_verified (hostPair 8000000 0) ["A", "B"]
    [oversizedAt "A" 1, oversizedAt "B" 2] (fun verified => verified.nonFatalErrors = [.nodeExceedsBufferSize "A" 1000 1500] ∧
      (verified.stats.statsByNode.lookup "B").map (·.maxBufferUsage) = some 0) (by decide +kernel)
  obtain ⟨herrors, hpeak⟩ := of_decide_eq_true hresult
  have husage : 1500 ∈ instantUsages v.steps "B" := by
    rw [(SimulationVerifier.new_tables hnew).steps]
    exact ⟨[oversizedAt "A" 1, oversizedAt "B" 2], [], by decide +kernel, endsInstant_nil _, by decide +kernel⟩
  refine ⟨v, verified, hnew, hostPair_nodeOrder, hv, hpeak, husage, herrors, fun h => ?_⟩
  obtain ⟨stats, hstats, hgreatest⟩ := h.peaks "B" _ rfl
  rw [hstats, Option.map_some] at hpeak
  have hle := hgreatest.2 husage
  rw [Option.some.inj hpeak] at hle
  omega

end QuicWorkbench
