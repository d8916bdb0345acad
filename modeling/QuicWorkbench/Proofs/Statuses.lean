import QuicWorkbench.Lib.StableSort
import QuicWorkbench.Proofs.Log
import QuicWorkbench.Proofs.Simulate
import QuicWorkbench.Proofs.Tables

/-!
# The statuses of links and nodes

The statuses before the first event are inferred from the events. What a link or node is at any time is read off the
sorted events: the status of its last event so far, or else the opposite of that of its first event, or else up. So
the first event of each is a transition, and only the order of its own events matters.
-/

namespace QuicWorkbench

section
variable {S : Type} {statusOf : NetworkEvent → Option (String × S)} {opposite : S → S} {up : S} {id : String}
  {events : List NetworkEvent}

/-- The status in the pair, if it is one of the entity. -/
def ofEntity (id : String) (x : String × S) : Option S := if x.1 = id then some x.2 else none

/-- The statuses that the events give to the entity. -/
def statusesOf (statusOf : NetworkEvent → Option (String × S)) (id : String) (events : List NetworkEvent) : List S :=
  events.filterMap fun event => (statusOf event).bind (ofEntity id)

/-- The status of an entity to which the events give these statuses, before all of them. -/
def inferredStatus (opposite : S → S) (up : S) (statuses : List S) : S :=
  match statuses.head? with
  | some status => opposite status
  | none => up

/-- The status of the entity after the first `k` events. -/
def statusAfterEvents (statusOf : NetworkEvent → Option (String × S)) (opposite : S → S) (up : S) (events : List NetworkEvent)
    (id : String) (k : Nat) : S :=
  (statusesOf statusOf id (events.take k)).getLast?.getD (inferredStatus opposite up (statusesOf statusOf id events))

theorem ofEntity_eq_some {x : String × S} {status : S} : ofEntity id x = some status ↔ x = (id, status) := by
  obtain ⟨id', status'⟩ := x
  simp [ofEntity]

theorem statusesOf_eq_nil : statusesOf statusOf id events = [] ↔ ∀ e ∈ events, ∀ status, statusOf e ≠ some (id, status) := by
  rw [statusesOf, List.filterMap_eq_nil_iff]
  refine forall₂_congr fun e _ => ?_
  cases h : statusOf e with
  | none => simp
  | some x =>
    rw [Option.bind_some, Option.eq_none_iff_forall_ne_some]
    simp [ofEntity_eq_some]

/-! ### The initial statuses -/

theorem ofEntity_firstStatuses (statusOf : NetworkEvent → Option (String × S)) (id : String) (events : List NetworkEvent)
    (seen : List String) : (firstStatuses statusOf events seen).filterMap (ofEntity id) =
      if id ∈ seen then [] else (statusesOf statusOf id events).head?.toList := by
  induction events generalizing seen with
  | nil => simp [firstStatuses, statusesOf]
  | cons event events ih =>
    rw [firstStatuses, statusesOf]
    cases h : statusOf event with
    | none =>
      rw [List.filterMap_cons_none (by rw [h]; rfl)]
      exact ih seen
    | some x =>
      obtain ⟨id', status⟩ := x
      dsimp only
      by_cases hid : id' = id
      · subst hid
        rw [List.filterMap_cons_some (b := status) (by rw [h]; simp [ofEntity])]
        split_ifs with hseen
        · rw [ih, if_pos hseen]
        · rw [List.filterMap_cons_some (b := status) (by simp [ofEntity]), ih, if_pos (List.mem_cons_self ..)]
          rfl
      · rw [List.filterMap_cons_none (by rw [h]; simp [ofEntity, hid])]
        split_ifs with hseen hseen' hseen'
        · rw [ih, if_pos hseen']
        · rw [ih, if_neg hseen']
          rfl
        · rw [List.filterMap_cons_none (by simp [ofEntity, hid]), ih, if_pos (List.mem_cons_of_mem _ hseen')]
        · rw [List.filterMap_cons_none (by simp [ofEntity, hid]), ih, if_neg (by simp [hseen', Ne.symm hid])]
          rfl

theorem mem_keys_firstStatuses {seen : List String} : id ∈ (firstStatuses statusOf events seen).map Prod.fst ↔
    id ∉ seen ∧ statusesOf statusOf id events ≠ [] := by
  have hfilter := ofEntity_firstStatuses statusOf id events seen
  have hmem : id ∈ (firstStatuses statusOf events seen).map Prod.fst ↔
      (firstStatuses statusOf events seen).filterMap (ofEntity id) ≠ [] := by
    rw [Ne, List.filterMap_eq_nil_iff]
    simp [ofEntity]
  rw [hmem, hfilter]
  by_cases hseen : id ∈ seen
  · simp [hseen]
  · cases h : statusesOf statusOf id events <;> simp [hseen]

theorem nodup_keys_firstStatuses (events : List NetworkEvent) (seen : List String) :
    ((firstStatuses statusOf events seen).map Prod.fst).Nodup := by
  induction events generalizing seen with
  | nil => simp [firstStatuses]
  | cons event events ih =>
    rw [firstStatuses]
    split
    · exact ih seen
    · split_ifs
      · exact ih seen
      · rw [List.map_cons, List.nodup_cons, mem_keys_firstStatuses]
        exact ⟨fun h => h.1 (List.mem_cons_self ..), ih _⟩

theorem keys_initialStatuses (statusOf : NetworkEvent → Option (String × S)) (opposite : S → S) (up : S)
    (events : List NetworkEvent) (ids : List String) :
    (initialStatuses statusOf opposite up events ids).map Prod.fst =
      (firstStatuses statusOf events []).map Prod.fst ++
        ids.filter fun id => id ∉ (firstStatuses statusOf events []).map Prod.fst := by
  simp [initialStatuses, Function.comp_def]

theorem nodup_initialStatuses {ids : List String} (h : ids.Nodup) :
    ((initialStatuses statusOf opposite up events ids).map Prod.fst).Nodup := by
  rw [keys_initialStatuses, List.nodup_append']
  refine ⟨nodup_keys_firstStatuses events [], h.filter _, fun id hfirst hother => ?_⟩
  have hnot := (List.mem_filter.1 hother).2
  simp only [decide_eq_true_eq] at hnot
  exact hnot hfirst

theorem mem_initialStatuses {ids : List String} : id ∈ (initialStatuses statusOf opposite up events ids).map Prod.fst ↔
    id ∈ ids ∨ ∃ e ∈ events, ∃ status, statusOf e = some (id, status) := by
  have hfirst : id ∈ (firstStatuses statusOf events []).map Prod.fst ↔
      ∃ e ∈ events, ∃ status, statusOf e = some (id, status) := by
    rw [mem_keys_firstStatuses, Ne, statusesOf_eq_nil]
    simp
  rw [keys_initialStatuses, List.mem_append, List.mem_filter]
  simp only [decide_eq_true_eq, hfirst]
  by_cases h : ∃ e ∈ events, ∃ status, statusOf e = some (id, status)
  · simp only [h, true_or, or_true]
  · simp only [h, false_or, not_false_eq_true, and_true, or_false]

/-- An entity that is up at first is in the inferred status after the initial events. -/
theorem ofEntity_initialStatuses (statusOf : NetworkEvent → Option (String × S)) (opposite : S → S) (up : S)
    (events : List NetworkEvent) (ids : List String) (id : String) :
    ((initialStatuses statusOf opposite up events ids).filterMap (ofEntity id)).getLast?.getD up =
      inferredStatus opposite up (statusesOf statusOf id events) := by
  have hfirst : ∀ f : String × S → String × S, (∀ x, f x = (x.1, opposite x.2)) →
      ((firstStatuses statusOf events []).map f).filterMap (ofEntity id) =
        ((statusesOf statusOf id events).head?.map opposite).toList := by
    intro f hf
    have h := ofEntity_firstStatuses statusOf id events []
    rw [if_neg (by simp)] at h
    rw [List.filterMap_map, Option.toList_map, ← h, List.map_filterMap]
    refine List.filterMap_congr fun x _ => ?_
    simp only [ofEntity, Function.comp, hf]
    split_ifs <;> rfl
  have hother : ∀ status ∈ ((ids.filter fun id => id ∉ (firstStatuses statusOf events []).map Prod.fst).map
      fun id => (id, up)).filterMap (ofEntity id), status = up ∧ statusesOf statusOf id events = [] := by
    intro status hstatus
    obtain ⟨x, hx, hof⟩ := List.mem_filterMap.1 hstatus
    obtain ⟨id', hid', rfl⟩ := List.mem_map.1 hx
    obtain ⟨rfl, rfl⟩ := by simpa using ofEntity_eq_some.1 hof
    have hnot := (List.mem_filter.1 hid').2
    simp only [decide_eq_true_eq, mem_keys_firstStatuses] at hnot
    exact ⟨rfl, by simpa using hnot⟩
  rw [initialStatuses, List.filterMap_append, hfirst _ fun x => rfl]
  generalize (((ids.filter _).map _).filterMap (ofEntity id)) = others at hother
  cases hstatuses : statusesOf statusOf id events with
  | nil =>
    rw [inferredStatus, List.head?_nil, Option.map_none, Option.toList_none, List.nil_append]
    cases hlast : others.getLast? with
    | none => rfl
    | some status => exact (hother status (List.mem_of_getLast? hlast)).1
  | cons status statuses =>
    have hnil : others = [] := by
      refine List.eq_nil_iff_forall_not_mem.2 fun x hx => ?_
      simp [hstatuses] at hother
      exact hother x hx
    rw [hnil]
    rfl

theorem foldl_status {σ E : Type*} (view : σ → S) (step : σ → E → σ) (status? : E → Option S)
    (hstep : ∀ s e, view (step s e) = (status? e).getD (view s)) (l : List E) (s : σ) :
    view (l.foldl step s) = (l.filterMap status?).getLast?.getD (view s) := by
  induction l generalizing s with
  | nil => rfl
  | cons e l ih =>
    rw [List.foldl_cons, ih, hstep]
    cases h : status? e with
    | none => rw [List.filterMap_cons_none h, Option.getD_none]
    | some status => rw [List.filterMap_cons_some h, List.getLast?_cons, Option.getD_some, Option.getD_some]

end

/-! ### The tables -/

/-- The tables by id have an entry of its own for each link and each node. -/
structure Names (net : InMemoryNetwork) (nodes : List NetworkNodeSpec) (links : List NetworkLinkSpec) : Prop where
  link : ∀ id ∈ links.map (·.id), ∃ j, ∀ id', net.linksById.lookup id' = some j ↔ id' = id
  node : ∀ id ∈ nodes.map (·.id), ∃ i, ∀ id', net.nodesById.lookup id' = some i ↔ id' = id

theorem Names.of_tables {spec : NetworkSpec} {net : InMemoryNetwork} (h : InMemoryNetwork.Tables spec net)
    (hnodes : (spec.nodes.map (·.id)).Nodup) : Names net spec.nodes spec.links where
  link id hid := by
    obtain ⟨l, hl, rfl⟩ := List.mem_map.1 hid
    obtain ⟨j, hj, rfl⟩ := List.getElem_of_mem (h.links ▸ hl : l ∈ net.links)
    refine ⟨j, fun id' => ?_⟩
    have hlink : net.link j = net.links[j] := by
      rw [InMemoryNetwork.link, List.getD_eq_getElem?_getD, List.getElem?_eq_getElem hj, Option.getD_some]
    rw [h.linksById, hlink, eq_comm]
    exact ⟨fun hlt => hlt.2, fun heq => ⟨hj, heq⟩⟩
  node id hid := by
    obtain ⟨n, hn, rfl⟩ := List.mem_map.1 hid
    obtain ⟨i, hi, hof⟩ := h.node_of hn
    refine ⟨i, fun id' => ?_⟩
    rw [← hof.id]
    constructor
    · exact fun hlookup => (h.nodesById id' i hlookup).2.symm
    · rintro rfl
      exact h.nodesById_self hnodes i hi

/-! ### What an event does -/

namespace State
variable {net : InMemoryNetwork} {s : State}

theorem toUpdate_processLinkEvent (net : InMemoryNetwork) (s : State) (event : LinkEventPayload) (j : LinkIx) :
    ((s.processLinkEvent net event).links j).status.toUpdate =
      (if net.linksById.lookup event.linkId = some j then event.status else none).getD (s.links j).status.toUpdate := by
  cases hlookup : net.linksById.lookup event.linkId with
  | none => simp [processLinkEvent_none hlookup]
  | some j' =>
    obtain ⟨s₁, hchange, heq⟩ := processLinkEvent_some hlookup
    rw [heq]
    show (s₁.links j).status.toUpdate = _
    generalize event.status = status at hchange ⊢
    by_cases hj : j' = j
    · subst hj
      rw [if_pos rfl]
      cases hchange with
      | same _ h =>
        cases status with
        | none => rfl
        | some u => exact (h u rfl).symm
      | down hup => simp [setLink, LinkStatus.toUpdate]
      | up upTx hdown => simp [setLink, LinkStatus.toUpdate]
    · rw [if_neg (by simpa using hj), Option.getD_none]
      cases hchange with
      | same _ h => rfl
      | down hup => simp [setLink, Ne.symm hj]
      | up upTx hdown => simp [setLink, Ne.symm hj]

theorem toUpdate_processNodeEvent (net : InMemoryNetwork) (s : State) (event : NodeEventPayload) (i : NodeIx) :
    ((s.processNodeEvent net event).nodes i).status.toUpdate =
      (if net.nodesById.lookup event.nodeId = some i then event.status else none).getD (s.nodes i).status.toUpdate := by
  cases hlookup : net.nodesById.lookup event.nodeId with
  | none => simp [processNodeEvent_none hlookup]
  | some i' =>
    obtain ⟨s₁, hchange, heq⟩ := processNodeEvent_some hlookup
    rw [heq]
    show ((if event.clearBuffer then s₁.clearBuffer i' else s₁).nodes i).status.toUpdate = _
    have hclear : ((if event.clearBuffer then s₁.clearBuffer i' else s₁).nodes i).status = (s₁.nodes i).status := by
      split_ifs
      · by_cases hi : i = i'
        · subst hi
          simp [clearBuffer, setNode, NodeState.clearBuffer]
        · simp [clearBuffer, setNode, hi]
      · rfl
    rw [hclear]
    generalize event.status = status at hchange ⊢
    by_cases hi : i' = i
    · subst hi
      rw [if_pos rfl]
      cases hchange with
      | same _ h =>
        cases status with
        | none => rfl
        | some u => exact (h u rfl).symm
      | down hup => simp [setNode, NodeStatus.toUpdate]
      | up upTx hdown => simp [setNode, NodeStatus.toUpdate]
    · rw [if_neg (by simpa using hi), Option.getD_none]
      cases hchange with
      | same _ h => rfl
      | down hup => simp [setNode, Ne.symm hi]
      | up upTx hdown => simp [setNode, Ne.symm hi]

theorem toUpdate_link_processEvent {id : String} {j : LinkIx} (hid : ∀ id', net.linksById.lookup id' = some j ↔ id' = id)
    (event : NetworkEvent) : ((s.processEvent net event).links j).status.toUpdate =
      (event.linkStatus.bind (ofEntity id)).getD (s.links j).status.toUpdate := by
  unfold processEvent NetworkEvent.linkStatus
  cases event.kind with
  | node payload => rw [links_processNodeEvent]; rfl
  | link payload =>
    rw [toUpdate_processLinkEvent]
    simp only [hid]
    cases payload.status with
    | none => simp
    | some status => simp [ofEntity]

theorem toUpdate_node_processEvent {id : String} {i : NodeIx} (hid : ∀ id', net.nodesById.lookup id' = some i ↔ id' = id)
    (event : NetworkEvent) : ((s.processEvent net event).nodes i).status.toUpdate =
      (event.nodeStatus.bind (ofEntity id)).getD (s.nodes i).status.toUpdate := by
  unfold processEvent NetworkEvent.nodeStatus
  cases event.kind with
  | link payload => rw [nodes_processLinkEvent]; rfl
  | node payload =>
    rw [toUpdate_processNodeEvent]
    simp only [hid]
    cases payload.status with
    | none => simp
    | some status => simp [ofEntity]

/-- The status of the link with the id. -/
def linkStatusOf (s : State) (net : InMemoryNetwork) (id : String) : Option UpdateLinkStatus :=
  (net.linksById.lookup id).map fun j => (s.links j).status.toUpdate

def nodeStatusOf (s : State) (net : InMemoryNetwork) (id : String) : Option UpdateNodeStatus :=
  (net.nodesById.lookup id).map fun i => (s.nodes i).status.toUpdate

end State

/-- The state after the initial events and the first `k` of the others. -/
def NetworkEvents.applied (events : NetworkEvents) (net : InMemoryNetwork) (now k : Nat) : State :=
  (events.sortedEvents.take k).foldl (fun s event => s.processEvent net event)
    (events.initialNodeEvents.foldl (fun s event => s.processNodeEvent net event)
      (events.initialLinkEvents.foldl (fun s event => s.processLinkEvent net event)
        (InMemoryNetwork.initialState net now events.sortedEvents)))

section
variable {net : InMemoryNetwork} {nodes : List NetworkNodeSpec} {links : List NetworkLinkSpec} {id : String}

theorem linkStatusOf_applied (h : Names net nodes links) (hid : id ∈ links.map (·.id)) (events : List NetworkEvent)
    (now k : Nat) : ((NetworkEvents.new events nodes links).applied net now k).linkStatusOf net id =
      some (statusAfterEvents NetworkEvent.linkStatus .opposite .up (NetworkEvents.new events nodes links).sortedEvents id k) := by
  obtain ⟨j, hj⟩ := h.link id hid
  generalize hnew : NetworkEvents.new events nodes links = new
  have hinitial : ((new.initialLinkEvents.foldl (fun s event => s.processLinkEvent net event)
      (InMemoryNetwork.initialState net now new.sortedEvents)).links j).status.toUpdate =
      inferredStatus .opposite .up (statusesOf NetworkEvent.linkStatus id new.sortedEvents) := by
    rw [foldl_status (fun s : State => (s.links j).status.toUpdate) _
      (fun event : LinkEventPayload => if net.linksById.lookup event.linkId = some j then event.status else none)
      fun s event => State.toUpdate_processLinkEvent net s event j]
    simp only [hj]
    rw [← hnew, ← ofEntity_initialStatuses _ _ _ _ (links.map (·.id)) id]
    show ((getInitialStatusForLinksWithEvents _ links).filterMap _).getLast?.getD UpdateLinkStatus.up = _
    rw [getInitialStatusForLinksWithEvents, List.filterMap_map]
    rfl
  have hnodes : ∀ (l : List NodeEventPayload) (s : State),
      (l.foldl (fun s event => s.processNodeEvent net event) s).links = s.links := by
    intro l
    induction l with
    | nil => exact fun s => rfl
    | cons event l ih => exact fun s => (ih _).trans (State.links_processNodeEvent net s event)
  rw [State.linkStatusOf, (hj id).2 rfl, Option.map_some, NetworkEvents.applied,
    foldl_status (fun s : State => (s.links j).status.toUpdate) _ (fun event : NetworkEvent => event.linkStatus.bind (ofEntity id))
      fun s event => State.toUpdate_link_processEvent hj event, hnodes, hinitial]
  rfl

theorem nodeStatusOf_applied (h : Names net nodes links) (hid : id ∈ nodes.map (·.id)) (events : List NetworkEvent)
    (now k : Nat) : ((NetworkEvents.new events nodes links).applied net now k).nodeStatusOf net id =
      some (statusAfterEvents NetworkEvent.nodeStatus .opposite .up (NetworkEvents.new events nodes links).sortedEvents id k) := by
  obtain ⟨i, hi⟩ := h.node id hid
  generalize hnew : NetworkEvents.new events nodes links = new
  have hlinks : ∀ (l : List LinkEventPayload) (s : State),
      (l.foldl (fun s event => s.processLinkEvent net event) s).nodes = s.nodes := by
    intro l
    induction l with
    | nil => exact fun s => rfl
    | cons event l ih => exact fun s => (ih _).trans (State.nodes_processLinkEvent net s event)
  have hinitial : ∀ s : State, (s.nodes i).status.toUpdate = .up →
      ((new.initialNodeEvents.foldl (fun s event => s.processNodeEvent net event) s).nodes i).status.toUpdate =
        inferredStatus .opposite .up (statusesOf NetworkEvent.nodeStatus id new.sortedEvents) := by
    intro s hs
    rw [foldl_status (fun s : State => (s.nodes i).status.toUpdate) _
      (fun event : NodeEventPayload => if net.nodesById.lookup event.nodeId = some i then event.status else none)
      fun s event => State.toUpdate_processNodeEvent net s event i, hs]
    simp only [hi]
    rw [← hnew, ← ofEntity_initialStatuses _ _ _ _ (nodes.map (·.id)) id]
    show ((getInitialStatusForNodesWithEvents _ nodes).filterMap _).getLast?.getD UpdateNodeStatus.up = _
    rw [getInitialStatusForNodesWithEvents, List.filterMap_map]
    rfl
  rw [State.nodeStatusOf, (hi id).2 rfl, Option.map_some, NetworkEvents.applied,
    foldl_status (fun s : State => (s.nodes i).status.toUpdate) _ (fun event : NetworkEvent => event.nodeStatus.bind (ofEntity id))
      fun s event => State.toUpdate_node_processEvent hi event, hinitial _ (by rw [hlinks]; rfl)]
  rfl

end

/-! ### What the statuses follow -/

section
variable {S : Type} {statusOf : NetworkEvent → Option (String × S)} {opposite : S → S} {up : S} {id : String}
  {events : List NetworkEvent}

/-- There is one initial event for each entity that is in the network graph or has a status event. -/
structure InitialFor (statusOf : NetworkEvent → Option (String × S)) (events : List NetworkEvent)
    (ids initialIds : List String) : Prop where
  nodup : initialIds.Nodup
  mem : ∀ id, id ∈ initialIds ↔ id ∈ ids ∨ ∃ e ∈ events, ∃ status, statusOf e = some (id, status)

/-- The entities follow the sorted events: `after k id` is the status of one after the first `k` events. -/
structure Follows (statusOf : NetworkEvent → Option (String × S)) (opposite : S → S) (up : S) (events : List NetworkEvent)
    (ids : List String) (after : Nat → String → Option S) : Prop where
  /-- before its first status event, it is in the opposite of that event's status -/
  before : ∀ id ∈ ids, ∀ k, statusesOf statusOf id (events.take k) = [] →
    ∀ status, (statusesOf statusOf id events).head? = some status → after k id = some (opposite status)
  /-- then in that of its last event -/
  last : ∀ id ∈ ids, ∀ k status, (statusesOf statusOf id (events.take k)).getLast? = some status → after k id = some status
  /-- and up throughout if it has no status event -/
  never : ∀ id ∈ ids, statusesOf statusOf id events = [] → ∀ k, after k id = some up
  /-- its first status event is a transition -/
  transition : ∀ id ∈ ids, ∀ k event status, events[k]? = some event → statusOf event = some (id, status) →
    statusesOf statusOf id (events.take k) = [] → after k id ≠ some status ∧ after (k + 1) id = some status

theorem statusesOf_append (statusOf : NetworkEvent → Option (String × S)) (id : String) (l l' : List NetworkEvent) :
    statusesOf statusOf id (l ++ l') = statusesOf statusOf id l ++ statusesOf statusOf id l' :=
  List.filterMap_append

theorem statusesOf_take_succ {k : Nat} {event : NetworkEvent} {status : S} (hk : events[k]? = some event)
    (hevent : statusOf event = some (id, status)) :
    statusesOf statusOf id (events.take (k + 1)) = statusesOf statusOf id (events.take k) ++ [status] := by
  rw [List.take_add_one, hk, statusesOf_append]
  simp [statusesOf, hevent, ofEntity]

theorem follows_of_statusAfterEvents {ids : List String} {after : Nat → String → Option S} (hne : ∀ status, opposite status ≠ status)
    (h : ∀ id ∈ ids, ∀ k, after k id = some (statusAfterEvents statusOf opposite up events id k)) :
    Follows statusOf opposite up events ids after := by
  have hbefore : ∀ id ∈ ids, ∀ k, statusesOf statusOf id (events.take k) = [] →
      ∀ status, (statusesOf statusOf id events).head? = some status → after k id = some (opposite status) := by
    intro id hid k hnil status hhead
    rw [h id hid, statusAfterEvents, hnil, List.getLast?_nil, Option.getD_none, inferredStatus, hhead]
  have hlast : ∀ id ∈ ids, ∀ k status, (statusesOf statusOf id (events.take k)).getLast? = some status →
      after k id = some status := by
    intro id hid k status hlast
    rw [h id hid, statusAfterEvents, hlast, Option.getD_some]
  refine ⟨hbefore, hlast, ?_, ?_⟩
  · intro id hid hnil k
    have htake : statusesOf statusOf id (events.take k) = [] := by
      have happend := statusesOf_append statusOf id (events.take k) (events.drop k)
      rw [List.take_append_drop, hnil] at happend
      exact (List.append_eq_nil_iff.1 happend.symm).1
    rw [h id hid, statusAfterEvents, htake, hnil]
    rfl
  · intro id hid k event status hk hevent hnil
    have hsucc := statusesOf_take_succ hk hevent
    rw [hnil, List.nil_append] at hsucc
    have hhead : (statusesOf statusOf id events).head? = some status := by
      rw [← List.take_append_drop (k + 1) events, statusesOf_append, hsucc]
      rfl
    rw [hbefore id hid k hnil status hhead, hlast id hid (k + 1) status (by rw [hsucc]; rfl)]
    exact ⟨fun heq => hne status (Option.some.inj heq), rfl⟩

end

theorem UpdateLinkStatus.opposite_ne (status : UpdateLinkStatus) : status.opposite ≠ status := by
  cases status <;> decide

theorem UpdateNodeStatus.opposite_ne (status : UpdateNodeStatus) : status.opposite ≠ status := by
  cases status <;> decide

/-! ### The order of the events -/

/-- What an event is about. -/
inductive Entity
  | link (id : String)
  | node (id : String)
  deriving DecidableEq

def NetworkEvent.entity (e : NetworkEvent) : Entity :=
  match e.kind with
  | .link payload => .link payload.linkId
  | .node payload => .node payload.nodeId

/-- The lists are permutations of each other in which the events of an entity at the same time are in the same order. -/
structure Reordered (events events' : List NetworkEvent) : Prop where
  perm : events.Perm events'
  sameTime : ∀ entity t, events.filter (fun e => e.entity = entity ∧ e.relativeTime = t) =
    events'.filter fun e => e.entity = entity ∧ e.relativeTime = t

/-- The events of the entity are sorted into the same order. -/
theorem Reordered.filter_sort {events events' : List NetworkEvent} (h : Reordered events events') (entity : Entity) :
    (StableSort.sort NetworkEvent.relativeTime events).filter (fun e => e.entity = entity) =
      (StableSort.sort NetworkEvent.relativeTime events').filter fun e => e.entity = entity := by
  rw [StableSort.filter_sort, StableSort.filter_sort]
  refine StableSort.sort_congr fun t => ?_
  have hsame := h.sameTime entity t
  simp only [List.filter_filter]
  simpa [Bool.decide_and, Bool.and_comm] using hsame

section
variable {S : Type} {statusOf : NetworkEvent → Option (String × S)} {opposite : S → S} {up : S} {id : String} {entity : Entity}

theorem statusesOf_filter (hentity : ∀ e status, statusOf e = some (id, status) → e.entity = entity)
    (events : List NetworkEvent) : statusesOf statusOf id (events.filter fun e => e.entity = entity) =
      statusesOf statusOf id events := by
  induction events with
  | nil => rfl
  | cons e events ih =>
    by_cases he : e.entity = entity
    · rw [List.filter_cons_of_pos (by simpa using he), statusesOf, statusesOf]
      cases h : (statusOf e).bind (ofEntity id) with
      | none =>
        rw [List.filterMap_cons, List.filterMap_cons, h]
        exact ih
      | some status =>
        rw [List.filterMap_cons, List.filterMap_cons, h]
        exact congrArg (status :: ·) ih
    · have hnone : (statusOf e).bind (ofEntity id) = none := by
        refine Option.bind_eq_none_iff.2 fun x hx => ?_
        refine Option.eq_none_iff_forall_ne_some.2 fun status hof => ?_
        rw [ofEntity_eq_some] at hof
        exact he (hentity e status (by rw [← hof]; exact hx))
      rw [List.filter_cons_of_neg (by simpa using he), ih]
      rw [statusesOf, statusesOf, List.filterMap_cons, hnone]

/-- So the status after the events up to some time depends on their order only. -/
theorem Reordered.statusAfterEvents_eq {events events' : List NetworkEvent} (h : Reordered events events')
    (hentity : ∀ e status, statusOf e = some (id, status) → e.entity = entity) (t : Nat) :
    let sorted := StableSort.sort NetworkEvent.relativeTime events
    let sorted' := StableSort.sort NetworkEvent.relativeTime events'
    statusAfterEvents statusOf opposite up sorted id (sorted.takeWhile (·.relativeTime ≤ t)).length =
      statusAfterEvents statusOf opposite up sorted' id (sorted'.takeWhile (·.relativeTime ≤ t)).length := by
  intro sorted sorted'
  have hsame : sorted.filter (fun e => e.entity = entity) = sorted'.filter fun e => e.entity = entity := h.filter_sort entity
  have htake : ∀ l : List NetworkEvent, l.take (l.takeWhile (·.relativeTime ≤ t)).length = l.takeWhile (·.relativeTime ≤ t) :=
    fun l => (List.prefix_iff_eq_take.1 (List.takeWhile_prefix _)).symm
  have hprefix : ∀ l : List NetworkEvent, statusesOf statusOf id ((StableSort.sort NetworkEvent.relativeTime l).takeWhile
      (·.relativeTime ≤ t)) = statusesOf statusOf id (((StableSort.sort NetworkEvent.relativeTime l).filter
        fun e => e.entity = entity).filter (·.relativeTime ≤ t)) := by
    intro l
    rw [(StableSort.sorted_sort NetworkEvent.relativeTime l).takeWhile_eq_filter, ← statusesOf_filter hentity, List.filter_comm]
  rw [statusAfterEvents, statusAfterEvents, htake, htake, hprefix events, hprefix events', ← statusesOf_filter hentity sorted,
    ← statusesOf_filter hentity sorted', hsame]

end

theorem NetworkEvent.entity_of_linkStatus {e : NetworkEvent} {id : String} {status : UpdateLinkStatus}
    (h : e.linkStatus = some (id, status)) : e.entity = .link id := by
  unfold NetworkEvent.linkStatus at h
  unfold NetworkEvent.entity
  cases hkind : e.kind with
  | node payload => simp [hkind] at h
  | link payload =>
    rw [hkind] at h
    obtain ⟨_, -, hpair⟩ := Option.map_eq_some_iff.1 h
    exact congrArg Entity.link (congrArg Prod.fst hpair)

theorem NetworkEvent.entity_of_nodeStatus {e : NetworkEvent} {id : String} {status : UpdateNodeStatus}
    (h : e.nodeStatus = some (id, status)) : e.entity = .node id := by
  unfold NetworkEvent.nodeStatus at h
  unfold NetworkEvent.entity
  cases hkind : e.kind with
  | link payload => simp [hkind] at h
  | node payload =>
    rw [hkind] at h
    obtain ⟨_, -, hpair⟩ := Option.map_eq_some_iff.1 h
    exact congrArg Entity.node (congrArg Prod.fst hpair)

/-! ### Runs -/

theorem statusAfterEvents_succ {S : Type} {statusOf : NetworkEvent → Option (String × S)} {opposite : S → S} {up : S} {id : String}
    {events : List NetworkEvent} {k : Nat} {event : NetworkEvent} (h : events[k]? = some event) :
    statusAfterEvents statusOf opposite up events id (k + 1) =
      ((statusOf event).bind (ofEntity id)).getD (statusAfterEvents statusOf opposite up events id k) := by
  rw [statusAfterEvents, statusAfterEvents, List.take_add_one, h, statusesOf_append]
  cases hstatus : (statusOf event).bind (ofEntity id) with
  | none => simp [statusesOf, hstatus]
  | some status => simp [statusesOf, hstatus]

/-- The first `k` events are processed, and the links and nodes are in the statuses after them. -/
structure Processed (net : InMemoryNetwork) (spec : NetworkSpec) (sorted : List NetworkEvent) (k : Nat) (s : State) :
    Prop where
  events : s.events = sorted.drop k
  links : ∀ id ∈ spec.links.map (·.id), s.linkStatusOf net id =
    some (statusAfterEvents NetworkEvent.linkStatus .opposite .up sorted id k)
  nodes : ∀ id ∈ spec.nodes.map (·.id), s.nodeStatusOf net id =
    some (statusAfterEvents NetworkEvent.nodeStatus .opposite .up sorted id k)

namespace Processed
variable {net : InMemoryNetwork} {spec : NetworkSpec} {sorted : List NetworkEvent} {k : Nat} {s s' : State}

theorem frame (h : Processed net spec sorted k s) (hevents : s'.events = s.events)
    (hlinks : ∀ j, (s'.links j).status = (s.links j).status) (hnodes : ∀ i, (s'.nodes i).status = (s.nodes i).status) :
    Processed net spec sorted k s' where
  events := hevents.trans h.events
  links id hid := by
    rw [← h.links id hid, State.linkStatusOf, State.linkStatusOf]
    simp only [hlinks]
  nodes id hid := by
    rw [← h.nodes id hid, State.nodeStatusOf, State.nodeStatusOf]
    simp only [hnodes]

theorem event (h : Processed net spec sorted k s) (hnames : Names net spec.nodes spec.links) {event : NetworkEvent}
    {events : List NetworkEvent} (hevents : s.events = event :: events) :
    Processed net spec sorted (k + 1) ({ s with events }.processEvent net event) := by
  have hdrop : sorted.drop k = event :: events := h.events.symm.trans hevents
  have hk : sorted[k]? = some event := by
    have hget : (sorted.drop k)[0]? = some event := by rw [hdrop]; rfl
    rwa [List.getElem?_drop, Nat.add_zero] at hget
  refine ⟨?_, fun id hid => ?_, fun id hid => ?_⟩
  · have hrest : sorted.drop (k + 1) = events := by rw [← List.drop_drop, hdrop]; rfl
    rw [hrest]
    unfold State.processEvent
    cases event.kind with
    | link payload => exact (State.processLinkEvent_frame net { s with events } payload).events
    | node payload => exact (State.processNodeEvent_frame net { s with events } payload).events
  · obtain ⟨j, hj⟩ := hnames.link id hid
    have hold := h.links id hid
    rw [State.linkStatusOf, (hj id).2 rfl, Option.map_some, Option.some.injEq] at hold ⊢
    rw [State.toUpdate_link_processEvent hj, statusAfterEvents_succ hk]
    exact congrArg _ hold
  · obtain ⟨i, hi⟩ := hnames.node id hid
    have hold := h.nodes id hid
    rw [State.nodeStatusOf, (hi id).2 rfl, Option.map_some, Option.some.injEq] at hold ⊢
    rw [State.toUpdate_node_processEvent hi, statusAfterEvents_succ hk]
    exact congrArg _ hold

theorem step (h : ∃ k, Processed net spec sorted k s) (hnames : Names net spec.nodes spec.links) {a : Action}
    (hstep : net.step s a = some s') : ∃ k, Processed net spec sorted k s' := by
  obtain ⟨k, h⟩ := h
  cases InMemoryNetwork.step_cases hstep with
  | event event events hevents => exact ⟨k + 1, h.event hnames hevents⟩
  | link j slot _ hj he => exact ⟨k, h.frame he.events he.frame.linkStatus he.frame.nodeStatus⟩
  | effects _ _ he =>
    refine ⟨k, Relation.ReflTransGen.preserves (I := fun σ => Processed net spec sorted k σ.state) (fun _ _ he h => ?_) he h⟩
    exact h.frame he.events he.linkFrame.linkStatus he.linkFrame.nodeStatus

end Processed

/-- In every state reached, the links and nodes are in the statuses after the events that are processed. -/
theorem exists_processed_of_reaches {disableTimeWarping : Bool} {spec : NetworkSpec} {events : List NetworkEvent}
    {net : InMemoryNetwork} {s : State} (h : Reaches disableTimeWarping spec events net s)
    (hnodes : (spec.nodes.map (·.id)).Nodup) :
    ∃ k, Processed net spec (NetworkEvents.new events spec.nodes spec.links).sortedEvents k s := by
  obtain ⟨simulationStart, start, now, s₀, actions, -, -, hinit, hrun⟩ := h
  obtain ⟨hbuild, hs₀⟩ := InMemoryNetwork.initializeNetwork_ok hinit
  have hnames : Names net spec.nodes spec.links := .of_tables (InMemoryNetwork.buildNetwork_tables hbuild) hnodes
  have happlied : s₀ = (NetworkEvents.new events spec.nodes spec.links).applied net now 0 := hs₀
  refine Machine.run_invariant (M := net.machine) (fun s a s' hs hstep => Processed.step hs hnames hstep) ⟨0, ?_⟩ hrun
  refine ⟨?_, fun id hid => happlied ▸ linkStatusOf_applied hnames hid events now 0,
    fun id hid => happlied ▸ nodeStatusOf_applied hnames hid events now 0⟩
  refine InMemoryNetwork.initializeNetwork_induction (I := fun s =>
    s.events = (NetworkEvents.new events spec.nodes spec.links).sortedEvents.drop 0) hinit rfl ?_ ?_
  · exact fun s payload _ hs => (s.processLinkEvent_frame net payload).events.trans hs
  · exact fun s payload _ hs => (s.processNodeEvent_frame net payload).events.trans hs

/-! ### All of it -/

/-- The state after the initial events and those up to the time. -/
def NetworkEvents.appliedUpTo (events : NetworkEvents) (net : InMemoryNetwork) (now t : Nat) : State :=
  events.applied net now (events.sortedEvents.takeWhile (·.relativeTime ≤ t)).length

/-- The links and nodes follow the events. -/
theorem statuses_follow_events (events : List NetworkEvent) {nodes : List NetworkNodeSpec} {links : List NetworkLinkSpec}
    (hnodes : (nodes.map (·.id)).Nodup) (hlinks : (links.map (·.id)).Nodup) :
    let new := NetworkEvents.new events nodes links
    InitialFor NetworkEvent.linkStatus events (links.map (·.id)) (new.initialLinkEvents.map (·.linkId)) ∧
    InitialFor NetworkEvent.nodeStatus events (nodes.map (·.id)) (new.initialNodeEvents.map (·.nodeId)) ∧
    ∀ net, Names net nodes links → ∀ now,
      Follows NetworkEvent.linkStatus .opposite .up new.sortedEvents (links.map (·.id))
        (fun k => (new.applied net now k).linkStatusOf net) ∧
      Follows NetworkEvent.nodeStatus .opposite .up new.sortedEvents (nodes.map (·.id))
        (fun k => (new.applied net now k).nodeStatusOf net) ∧
      ∀ events', Reordered events events' → ∀ t, let new' := NetworkEvents.new events' nodes links
        (∀ id ∈ links.map (·.id), (new.appliedUpTo net now t).linkStatusOf net id =
          (new'.appliedUpTo net now t).linkStatusOf net id) ∧
        ∀ id ∈ nodes.map (·.id), (new.appliedUpTo net now t).nodeStatusOf net id =
          (new'.appliedUpTo net now t).nodeStatusOf net id := by
  intro new
  have hsorted : ∀ {S : Type} (statusOf : NetworkEvent → Option (String × S)) (id : String),
      (∃ e ∈ new.sortedEvents, ∃ status, statusOf e = some (id, status)) ↔ ∃ e ∈ events, ∃ status, statusOf e = some (id, status) :=
    fun statusOf id => exists_congr fun e =>
      and_congr_left fun _ => (StableSort.perm_sort NetworkEvent.relativeTime events).mem_iff
  have hlinkIds : new.initialLinkEvents.map (·.linkId) =
      (initialStatuses NetworkEvent.linkStatus .opposite .up new.sortedEvents (links.map (·.id))).map Prod.fst := by
    show (getInitialStatusForLinksWithEvents _ links).map _ = _
    rw [getInitialStatusForLinksWithEvents, List.map_map]
    rfl
  have hnodeIds : new.initialNodeEvents.map (·.nodeId) =
      (initialStatuses NetworkEvent.nodeStatus .opposite .up new.sortedEvents (nodes.map (·.id))).map Prod.fst := by
    show (getInitialStatusForNodesWithEvents _ nodes).map _ = _
    rw [getInitialStatusForNodesWithEvents, List.map_map]
    rfl
  refine ⟨⟨?_, fun id => ?_⟩, ⟨?_, fun id => ?_⟩, fun net hnames now => ⟨?_, ?_, fun events' hre t => ⟨?_, ?_⟩⟩⟩
  · exact hlinkIds ▸ nodup_initialStatuses hlinks
  · rw [hlinkIds, mem_initialStatuses, hsorted]
  · exact hnodeIds ▸ nodup_initialStatuses hnodes
  · rw [hnodeIds, mem_initialStatuses, hsorted]
  · exact follows_of_statusAfterEvents UpdateLinkStatus.opposite_ne fun id hid k => linkStatusOf_applied hnames hid events now k
  · exact follows_of_statusAfterEvents UpdateNodeStatus.opposite_ne fun id hid k => nodeStatusOf_applied hnames hid events now k
  · intro id hid
    rw [NetworkEvents.appliedUpTo, NetworkEvents.appliedUpTo, linkStatusOf_applied hnames hid, linkStatusOf_applied hnames hid]
    exact congrArg some (hre.statusAfterEvents_eq (fun e status => NetworkEvent.entity_of_linkStatus) t)
  · intro id hid
    rw [NetworkEvents.appliedUpTo, NetworkEvents.appliedUpTo, nodeStatusOf_applied hnames hid, nodeStatusOf_applied hnames hid]
    exact congrArg some (hre.statusAfterEvents_eq (fun e status => NetworkEvent.entity_of_nodeStatus) t)

/-- The first link goes down at the same time as `B`, in either order. -/
def linkThenNode : List NetworkEvent := [HostPair.linkEvent 1 "a1b" .down, HostPair.nodeEvent 1 "B" (some .down) false]

def nodeThenLink : List NetworkEvent := [HostPair.nodeEvent 1 "B" (some .down) false, HostPair.linkEvent 1 "a1b" .down]

theorem reordered_linkThenNode : Reordered linkThenNode nodeThenLink where
  perm := List.Perm.swap _ _ _
  sameTime entity t := by
    cases entity with
    | link id => simp [linkThenNode, nodeThenLink, HostPair.linkEvent, HostPair.nodeEvent, NetworkEvent.entity, List.filter_cons]
    | node id => simp [linkThenNode, nodeThenLink, HostPair.linkEvent, HostPair.nodeEvent, NetworkEvent.entity, List.filter_cons]

/-- The link is up, then down, whichever of the events comes first. -/
theorem statuses_linkThenNode : ∃ net s, InMemoryNetwork.initializeNetwork (hostPair 8000000 0)
    (.new linkThenNode (hostPair 8000000 0).nodes (hostPair 8000000 0).links) 0 0 0 false = .ok (net, s) ∧
    let new := NetworkEvents.new linkThenNode (hostPair 8000000 0).nodes (hostPair 8000000 0).links
    let new' := NetworkEvents.new nodeThenLink (hostPair 8000000 0).nodes (hostPair 8000000 0).links
    (new.applied net 0 0).linkStatusOf net "a1b" = some .up ∧ (new.applied net 0 1).linkStatusOf net "a1b" = some .down ∧
    (new.applied net 0 0).nodeStatusOf net "B" = some .up ∧
    (new.appliedUpTo net 0 1).nodeStatusOf net "B" = (new'.appliedUpTo net 0 1).nodeStatusOf net "B" := by
  obtain ⟨net, s, -, hinit, -, -, -⟩ := exists_of_simulateGuarded (hostPair 8000000 0) linkThenNode [] (fun _ _ _ => True)
    (fun _ _ => true) (by decide +kernel)
  have htables := InMemoryNetwork.buildNetwork_tables (InMemoryNetwork.initializeNetwork_ok hinit).1
  have hnames := Names.of_tables htables (by decide +kernel)
  have hnodes : ((hostPair 8000000 0).nodes.map (·.id)).Nodup := by decide +kernel
  have hlinks : ((hostPair 8000000 0).links.map (·.id)).Nodup := by decide +kernel
  obtain ⟨-, -, hstatuses⟩ := statuses_follow_events linkThenNode hnodes hlinks
  obtain ⟨hlinks, hnodes, horder⟩ := hstatuses net hnames 0
  refine ⟨net, s, hinit, ?_, ?_, ?_, ?_⟩
  · exact hlinks.before "a1b" (by decide +kernel) 0 rfl .down (by decide +kernel)
  · exact hlinks.last "a1b" (by decide +kernel) 1 .down (by decide +kernel)
  · exact hnodes.before "B" (by decide +kernel) 0 rfl .down (by decide +kernel)
  · exact (horder nodeThenLink reordered_linkThenNode 1).2 "B" (by decide +kernel)

end QuicWorkbench
