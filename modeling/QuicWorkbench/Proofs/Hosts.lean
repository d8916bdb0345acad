import QuicWorkbench.Network.Application
import QuicWorkbench.Proofs.Hops
import QuicWorkbench.Proofs.RecvSlots
import QuicWorkbench.Proofs.Runs
import QuicWorkbench.Proofs.Tables
import QuicWorkbench.Proofs.Unroutable

/-!
# Hosts and their sockets

The host at an address is bound to this address, on the port of all hosts. What an application receives are packets that
waited at its host, with their sources and contents; and with slots for all of them, large enough, `receive` never panics.
-/

namespace QuicWorkbench

namespace InMemoryNetwork

/-- A host is registered under the address of its endpoint only. -/
def NodeTables.Bound (t : NodeTables) : Prop :=
  ∀ a i endpoint, t.byAddr.lookup a = some i → (t.nodes.getD i default).udpEndpoint = some endpoint →
    endpoint.addr = ⟨a, hostPort⟩

theorem addHost_bound {specs : List NetworkNodeSpec} {t t' : NodeTables} {spec : NetworkNodeSpec} (hinv : t.Inv specs)
    (h : t.Bound) (hok : addHost t spec = .ok t') : t'.Bound := by
  unfold addHost at hok
  split at hok
  · simp at hok
  · rename_i n endpoint hhost
    dsimp only at hok
    split_ifs at hok
    obtain rfl := Except.ok.inj hok
    obtain ⟨-, hendpoint, -⟩ := host_of hhost
    have hport : endpoint.addr.port = hostPort := by
      unfold Node.host at hhost
      split_ifs at hhost
      split at hhost
      · simp at hhost
      · split at hhost
        · simp at hhost
        · obtain ⟨-, rfl⟩ := by simpa using hhost
          rfl
    intro a i e ha he
    by_cases heq : a = endpoint.addr.ip
    · subst heq
      obtain rfl : t.nodes.length = i := by simpa [AList.lookup_insert] using ha
      rw [getD_snoc_self, hendpoint] at he
      obtain rfl := Option.some.inj he
      rw [← hport]
    · rw [AList.lookup_insert_ne heq] at ha
      rw [getD_snoc_left (hinv.byAddr a i ha).1] at he
      exact h a i e ha he

theorem addRouter_bound {specs : List NetworkNodeSpec} {t t' : NodeTables} {spec : NetworkNodeSpec} (hinv : t.Inv specs)
    (h : t.Bound) (hok : addRouter t spec = .ok t') : t'.Bound := by
  unfold addRouter at hok
  split at hok
  · simp at hok
  · rename_i n hrouter
    obtain ⟨t₁, haddresses, hok⟩ := Except.bind_eq_ok.1 hok
    obtain rfl := Except.pure_eq_ok.1 hok
    obtain ⟨hnodes, -, haddr⟩ := addAddresses_ok n.addresses haddresses
    intro a i e ha he
    have he : ((t.nodes ++ [n]).getD i default).udpEndpoint = some e := by rwa [← hnodes]
    rcases haddr a i ha with hold | ⟨rfl, -⟩
    · have hold : t.byAddr.lookup a = some i := hold
      rw [getD_snoc_left (hinv.byAddr a i hold).1] at he
      exact h a i e hold he
    · -- a router has no endpoint
      unfold Node.router at hrouter
      split_ifs at hrouter
      obtain rfl := Except.ok.inj hrouter
      rw [getD_snoc_self] at he
      simp [Node.ofSpec] at he

theorem buildNetwork_bound {spec : NetworkSpec} {simulationStart start : Nat} {net : InMemoryNetwork}
    (h : buildNetwork spec simulationStart start = .ok net) {ip : IpAddr} {i : NodeIx} (hhost : net.host ip = some i) :
    (net.node i).udpEndpoint = some ⟨⟨ip, hostPort⟩⟩ := by
  obtain ⟨-, t₁, tl, t₂, hhosts, -, hrouters, rfl⟩ := exists_of_buildNetwork h
  have h₀ : NodeTables.Inv [] {} ∧ NodeTables.Bound {} :=
    ⟨⟨.nil, by simp, by simp, by simp⟩, fun a i e ha => by simp at ha⟩
  have h₁ : NodeTables.Inv _ t₁ ∧ t₁.Bound := Except.foldlM_ok_induction
    (I := fun specs t => NodeTables.Inv specs t ∧ t.Bound) _
    (fun pre a _ b b' hI hok => ⟨addHost_inv hI.1 hok, addHost_bound hI.1 hI.2 hok⟩) h₀ hhosts
  have h₂ : NodeTables.Inv (spec.nodes.filter (·.kind = .host) ++ spec.nodes.filter (·.kind ≠ .host)) t₂ ∧ t₂.Bound :=
    Except.foldlM_ok_induction (I := fun specs t => NodeTables.Inv specs t ∧ t.Bound) _
      (fun pre a ha b b' hI hok => ⟨addRouter_inv hI.1 (by simpa using (List.mem_filter.1 ha).2) hok,
        addRouter_bound hI.1 hI.2 hok⟩) h₁ hrouters
  obtain ⟨hlookup, hisSome⟩ := Option.filter_eq_some_iff.1 hhost
  obtain ⟨endpoint, hendpoint⟩ := Option.isSome_iff_exists.1 hisSome
  have haddr : endpoint.addr = ⟨ip, hostPort⟩ := h₂.2 ip i endpoint hlookup hendpoint
  rw [hendpoint, ← haddr]

end InMemoryNetwork

/-- Where everything in the queue has arrived, a future without a timer hands out packets if there are any, and does not
set a timer. -/
theorem NextPacketDelivery.poll_of_arrived {d : NextPacketDelivery} {q : InboundQueue} {now : Nat} (hsleep : d.sleep = none)
    (hmax : 0 < d.maxTransmits) (harrived : ∀ e ∈ q.queue, e.arrivalTime ≤ now) (waker : Waker) :
    (d.poll q now waker).2.1 = d ∧ ∃ batch, q.queue.Perm (batch ++ (d.poll q now waker).2.2.queue) ∧
      batch.length ≤ d.maxTransmits ∧ (batch ≠ [] ∧ (d.poll q now waker).1 = .ready (batch.map (·.deliver)) ∨
        q.queue = [] ∧ batch = [] ∧ ∃ source, (d.poll q now waker).1 = .pending source) := by
  have hpoll := NextPacketDelivery.poll_cases d q now waker hmax
  generalize d.poll q now waker = r at hpoll
  obtain ⟨sleep, maxTransmits⟩ := d
  obtain rfl : sleep = none := hsleep
  cases hpoll with
  | asleep deadline h => simp at h
  | empty _ hq => exact ⟨rfl, [], by simp, Nat.zero_le _, .inr ⟨hq, rfl, _, rfl⟩⟩
  | early _ p hp hmin hlt => exact absurd (harrived p hp) (Nat.not_le.2 hlt)
  | ready _ batch rest sleep hne hdue htimer =>
    refine ⟨?_, batch, hdue.perm, hdue.length_le, .inl ⟨hne, rfl⟩⟩
    cases htimer with
    | off => rfl
    | on p hp _ hlt => exact absurd (harrived p (hdue.perm.mem_iff.2 (List.mem_append_right _ hp))) (Nat.not_le.2 hlt)

namespace State
variable {net : InMemoryNetwork} {s : State} {i : NodeIx}

theorem trySend_of_sendFrom {transmit : OwnedTransmit} {uuid : Uuid} {draws : Draws} {result : Except State State}
    (h : s.sendFrom net i transmit uuid draws = some result) : s.trySend net i transmit uuid draws = some (settled result) := by
  unfold sendFrom at h
  split at h
  · simp at h
  · rename_i endpoint hhost
    split_ifs at h with hsegment
    obtain rfl := Option.some.inj h
    rw [trySend, hhost]
    exact if_neg hsegment

theorem exists_sendFrom {endpoint : UdpEndpoint} (hhost : (net.node i).udpEndpoint = some endpoint) (transmit : OwnedTransmit)
    (hsegment : transmit.segmentSize = none) (uuid : Uuid) (draws : Draws) :
    ∃ result, s.sendFrom net i transmit uuid draws = some result := by
  unfold sendFrom
  rw [hhost]
  simp [hsegment]

/-- A send panics only where the task of the host has ended. -/
theorem not_running_of_sendFrom {s' : State} {transmit : OwnedTransmit} {uuid : Uuid} {draws : Draws}
    (h : s.sendFrom net i transmit uuid draws = some (.error s')) : s.nodeTasks i ≠ .running := by
  intro hrunning
  unfold sendFrom at h
  split at h
  · simp at h
  · rename_i endpoint hhost
    split_ifs at h
    have hcreated : (s.create uuid).nodeTasks i = .running := hrunning
    obtain ⟨s₁, hforward⟩ := exists_forward net hcreated (s.inTransitData net i endpoint transmit uuid) draws
    rw [show s.create uuid = { s.newPacketId uuid with nextTransmitNumber := s.nextTransmitNumber + 1 } from rfl] at hforward
    simp [hforward] at h

theorem nodeTasks_of_sendFrom {s' : State} {transmit : OwnedTransmit} {uuid : Uuid} {draws : Draws}
    (h : s.sendFrom net i transmit uuid draws = some (.ok s')) : s'.nodeTasks = s.nodeTasks := by
  have hstep : net.step s (.trySend i transmit uuid draws) = some s' := trySend_of_sendFrom h
  exact (TasksFrame.step (by simp) hstep).nodeTasks

end State

/-! ### Receiving -/

/-- `count` slots of `size` bytes each. -/
structure Slots.Sized (slots : Slots) (size count : Nat) : Prop where
  metas : slots.metas.length = count
  bufs : slots.bufs.length = count
  buf : ∀ buf ∈ slots.bufs, buf.length = size

theorem Slots.sized_new (size count : Nat) : (Slots.new size count).Sized size count := by
  refine ⟨List.length_replicate, List.length_replicate, fun buf hbuf => ?_⟩
  rw [List.eq_of_mem_replicate hbuf, List.length_replicate]

/-- The packet, as an application gets it. -/
def PrioritizedInTransitData.udpPacket (e : PrioritizedInTransitData) : UdpPacket :=
  { sourceAddr := e.data.sourceEndpoint.addr, payload := e.data.transmit.contents }

theorem RecvCall.Delivers.packet {c : RecvCall} {taken : List PrioritizedInTransitData} {size count : Nat} (h : c.Delivers taken)
    (hslots : c.slots.Sized size count) {k : Nat} (hk : k < taken.length) :
    c.recv.slots.packet k = some taken[k].udpPacket := by
  have hmeta : c.recv.slots.metas[k]? = some (.ofPacket taken[k].data) := by
    rw [h.metas, List.getElem?_append_left (by simpa using hk)]
    simp [hk]
  have hbufs : k < c.slots.bufs.length := by
    have := h.fits
    rw [hslots.metas] at this
    rw [hslots.bufs]
    omega
  have hbuf : c.recv.slots.bufs[k]? = some (copyFromSlice c.slots.bufs[k] taken[k].data.transmit.contents) := by
    rw [h.bufs, List.getElem?_append_left (by simpa using ⟨hbufs, hk⟩)]
    simp [hk, hbufs]
  simp [Slots.packet, hmeta, hbuf, RecvMeta.ofPacket, copyFromSlice, PrioritizedInTransitData.udpPacket]

theorem RecvCall.Delivers.sized {c : RecvCall} {taken : List PrioritizedInTransitData} {size count : Nat} (h : c.Delivers taken)
    (hslots : c.slots.Sized size count) (hsmall : ∀ e ∈ taken, e.data.transmit.contents.length ≤ size) :
    c.recv.slots.Sized size count := by
  have hfits := h.fits
  rw [hslots.metas] at hfits
  refine ⟨?_, ?_, fun buf hbuf => ?_⟩
  · rw [h.metas, List.length_append, List.length_map, List.length_drop, hslots.metas]
    omega
  · rw [h.bufs, List.length_append, List.length_zipWith, List.length_map, List.length_drop, hslots.bufs]
    omega
  · rw [h.bufs] at hbuf
    rcases List.mem_append.1 hbuf with hbuf | hbuf
    · obtain ⟨k, hk, rfl⟩ := List.getElem_of_mem hbuf
      simp only [List.length_zipWith, List.length_map, lt_min_iff] at hk
      have hsize := hslots.buf _ (List.getElem_mem hk.1)
      have hle := hsmall _ (List.getElem_mem hk.2)
      simp only [List.getElem_zipWith, List.getElem_map, copyFromSlice, List.length_append, List.length_drop]
      omega
    · exact hslots.buf buf (List.drop_subset _ _ hbuf)

theorem mapM_range_eq_some {β : Type} {f : Nat → Option β} {l : List β} (h : ∀ k (hk : k < l.length), f k = some l[k]) :
    (List.range l.length).mapM f = some l := by
  induction l using List.reverseRecOn with
  | nil => rfl
  | append_singleton l b ih =>
    have hlast : f l.length = some b := by
      rw [h l.length (by simp)]
      simp
    have hinit : (List.range l.length).mapM f = some l := ih fun k hk => by
      rw [h k (by simp; omega)]
      simp [hk]
    rw [List.length_append, List.length_singleton, List.range_succ, List.mapM_append, hinit]
    simp [hlast]

namespace State
variable {net : InMemoryNetwork} {s : State} {i : NodeIx} {size count : Nat} {slots : Slots}

/-- What `receive` takes from the queue of the host. -/
structure Receives (net : InMemoryNetwork) (s : State) (i : NodeIx) (size count : Nat) (slots : Slots) (r : Received)
    (taken : List PrioritizedInTransitData) : Prop where
  subset : taken ⊆ (s.nodes i).inbound.queue
  packets : r.packets.getD [] = taken.map (·.udpPacket)
  sized : r.slots.Sized size count
  state : s.pollRecv net i slots.metas.length = some r.state
  sockets : r.state.sockets = Function.update s.sockets i (some (.new count))

theorem sockets_foldl_trackReadByHost (net : InMemoryNetwork) (i : NodeIx) (read : List InTransitData) (s : State) :
    (read.foldl (fun s d => s.trackReadByHost net i d) s).sockets = s.sockets := by
  induction read generalizing s with
  | nil => rfl
  | cons d read ih => exact ih _

/-- With slots of the same number and size in every call, large enough, `receive` hands out packets that wait, whole, and
does not panic. -/
theorem exists_receive (hhost : (net.node i).udpEndpoint.isSome) (hcount : 0 < count) (hslots : slots.Sized size count)
    (hsocket : ∀ delivery, s.sockets i = some delivery → delivery = .new count)
    (harrived : ∀ e ∈ (s.nodes i).inbound.queue, e.arrivalTime ≤ s.now)
    (hsmall : ∀ e ∈ (s.nodes i).inbound.queue, e.data.transmit.contents.length ≤ size) :
    ∃ r taken, s.receive net i slots = some r ∧ Receives net s i size count slots r taken := by
  have hdelivery : (s.sockets i).getD (.new slots.metas.length) = .new count := by
    rw [hslots.metas]
    cases hs : s.sockets i with
    | none => rfl
    | some delivery => exact hsocket delivery hs
  have hlen : slots.metas.length ≤ slots.bufs.length := by rw [hslots.metas, hslots.bufs]
  let w : SocketWorld := ⟨s.now, (s.nodes i).inbound, s.sockets i, [], []⟩
  obtain ⟨recv, hrecv⟩ := SocketWorld.exists_pollRecv (w := w) i hlen fun buf hbuf e he => by
    rw [hslots.buf buf hbuf]
    exact hsmall e he
  have hrecv : InMemoryUdpSocket.pollRecv (s.sockets i) (s.nodes i).inbound s.now i slots = some recv := hrecv
  obtain ⟨taken, htaken⟩ := (SocketWorld.delivers_iff_enoughSlots (w := w) hrecv).2 fun _ => by
    rw [show w.nextPacketDelivery = s.sockets i from rfl, hdelivery, hslots.metas]
    exact Nat.min_le_left _ _
  have hsub : taken ⊆ (s.nodes i).inbound.queue := fun e he => htaken.took.mem_iff.2 (List.mem_append_left _ he)
  have hsized := htaken.sized hslots fun e he => hsmall e (hsub he)
  have hstate := InMemoryNetwork.State.pollRecv_eq hhost hrecv
  have hsockets : (recv.read.foldl (fun (s : State) d => s.trackReadByHost net i d)
      { s.setNode i { s.nodes i with inbound := recv.queue } with
        sockets := Function.update s.sockets i (some recv.nextPacketDelivery) }).sockets =
      Function.update s.sockets i (some (.new count)) := by
    rw [sockets_foldl_trackReadByHost]
    refine congrArg (fun delivery => Function.update s.sockets i (some delivery)) ?_
    rw [InMemoryUdpSocket.pollRecv, if_neg (Nat.not_lt.2 hlen), hdelivery] at hrecv
    have hpoll := (NextPacketDelivery.poll_of_arrived (d := .new count) rfl hcount harrived i).1
    dsimp only at hrecv
    generalize (NextPacketDelivery.new count).poll (s.nodes i).inbound s.now i = polled at hrecv hpoll
    obtain ⟨result, delivery, queue⟩ := polled
    obtain rfl : delivery = .new count := hpoll
    cases result with
    | pending source => rw [← Option.some.inj hrecv]
    | ready delivered =>
      obtain ⟨r, -, rfl⟩ := Option.map_eq_some_iff.1 hrecv
      rfl
  unfold receive
  simp only [hrecv, Option.bind_eq_bind, Option.bind_some]
  cases hresult : recv.result with
  | none =>
    have hnil : taken = [] := by
      have := htaken.result
      simp only [hresult, Option.getD_none] at this
      exact List.length_eq_zero_iff.1 this.symm
    exact ⟨_, taken, rfl, hsub, by rw [hnil]; rfl, hsized, hstate, hsockets⟩
  | some n =>
    have hn : n = (taken.map (·.udpPacket)).length := by
      have := htaken.result
      simp only [hresult, Option.getD_some] at this
      rw [List.length_map, this]
    have hpackets : (List.range n).mapM recv.slots.packet = some (taken.map (·.udpPacket)) := by
      rw [hn]
      refine mapM_range_eq_some fun k hk => ?_
      rw [List.getElem_map]
      exact htaken.packet hslots (by simpa using hk)
    simp only [hpackets, Option.bind_some]
    exact ⟨_, taken, rfl, hsub, rfl, hsized, hstate, hsockets⟩

end State

theorem Traced.exists_receive {net : InMemoryNetwork} {spec : NetworkSpec} {sends : List Sending} {s : State} {i : NodeIx}
    {size count : Nat} {slots : Slots} (h : Traced net sends s) (htables : net.Tables spec)
    (hhost : (net.node i).udpEndpoint.isSome) (hcount : 0 < count) (hslots : slots.Sized size count)
    (hsocket : ∀ delivery, s.sockets i = some delivery → delivery = .new count)
    (hsmall : ∀ x ∈ sends, x.transmit.contents.length ≤ size) :
    ∃ r taken, s.receive net i slots = some r ∧ State.Receives net s i size count slots r taken ∧ Traced net sends r.state ∧
      r.state.now = s.now ∧ ∀ e ∈ taken, CameTo net sends r.state i e := by
  obtain ⟨r, taken, hr, hreceives⟩ := State.exists_receive hhost hcount hslots hsocket
    (fun e he => by
      have harrived := h.announced i e he
      rw [PrioritizedInTransitData.arrivalTime, harrived.delay]
      exact harrived.sent)
    (fun e he => by
      obtain ⟨x, D, hx, hdesc, -⟩ := (h.cameTo he).sentAs
      obtain ⟨ecn, htransmit⟩ := hdesc.transmit
      rw [htransmit]
      exact hsmall x (List.mem_of_getElem? hx))
  have hstretch := Stretches.pollRecv hreceives.state
  obtain ⟨kinds, hlog, -⟩ := hstretch.log
  refine ⟨r, taken, hr, hreceives, ?_, hstretch.now, fun e he => ?_⟩
  · have htraced := h.step htables (a := .pollRecv i slots.metas.length) hreceives.state
    simpa [Action.sending] using htraced
  · rw [← List.append_nil sends]
    exact (h.cameTo (hreceives.subset he)).mono (hlog ▸ List.subset_append_left ..) (Nat.le_of_eq hstretch.now.symm)

theorem State.Receives.sockets_new {net : InMemoryNetwork} {s : State} {i : NodeIx} {size count : Nat} {slots : Slots}
    {r : State.Received} {taken : List PrioritizedInTransitData} (h : State.Receives net s i size count slots r taken)
    (hsockets : ∀ i delivery, s.sockets i = some delivery → delivery = .new count) (i' : NodeIx) (delivery : NextPacketDelivery)
    (hi' : r.state.sockets i' = some delivery) : delivery = .new count := by
  rw [h.sockets] at hi'
  by_cases heq : i' = i
  · subst heq
    rw [Function.update_self] at hi'
    exact (Option.some.inj hi').symm
  · rw [Function.update_of_ne heq] at hi'
    exact hsockets i' delivery hi'

theorem State.Receives.nodeTasks {net : InMemoryNetwork} {s : State} {i : NodeIx} {size count : Nat} {slots : Slots}
    {r : State.Received} {taken : List PrioritizedInTransitData} (h : State.Receives net s i size count slots r taken) :
    r.state.nodeTasks = s.nodeTasks := by
  have hstep : net.step s (.pollRecv i slots.metas.length) = some r.state := h.state
  exact (TasksFrame.step (by simp) hstep).nodeTasks

/-! ### Two hosts -/

/-- A server and a client at their addresses. -/
structure Hosts (net : InMemoryNetwork) (spec : NetworkSpec) (serverIp clientIp : IpAddr) (server client : NodeIx) : Prop where
  tables : net.Tables spec
  server : (net.node server).udpEndpoint = some ⟨⟨serverIp, hostPort⟩⟩
  client : (net.node client).udpEndpoint = some ⟨⟨clientIp, hostPort⟩⟩

theorem Hosts.of_host {spec : NetworkSpec} {networkEvents : NetworkEvents} {simulationStart started now : Nat}
    {disableTimeWarping : Bool} {net : InMemoryNetwork} {s₀ : State} {serverIp clientIp : IpAddr} {server client : NodeIx}
    (hinit : InMemoryNetwork.initializeNetwork spec networkEvents simulationStart started now disableTimeWarping = .ok (net, s₀))
    (hserver : net.host serverIp = some server) (hclient : net.host clientIp = some client) :
    Hosts net spec serverIp clientIp server client :=
  have hbuild := (InMemoryNetwork.initializeNetwork_ok hinit).1
  ⟨InMemoryNetwork.buildNetwork_tables hbuild, InMemoryNetwork.buildNetwork_bound hbuild hserver,
    InMemoryNetwork.buildNetwork_bound hbuild hclient⟩

/-- Initializes a network at instant 0, in time-warp mode, for applications on the hosts at two addresses. -/
def simulateHosts (spec : NetworkSpec) (ipA ipB : IpAddr) (P : InMemoryNetwork → State → NodeIx → NodeIx → Bool) : Bool :=
  match InMemoryNetwork.initializeNetwork spec (.new [] spec.nodes spec.links) 0 0 0 false with
  | .error _ => false
  | .ok (net, s) =>
    match net.host ipA, net.host ipB with
    | some a, some b => P net s a b
    | _, _ => false

theorem exists_of_simulateHosts {spec : NetworkSpec} {ipA ipB : IpAddr}
    {P : InMemoryNetwork → State → NodeIx → NodeIx → Bool} (h : simulateHosts spec ipA ipB P) :
    ∃ net s a b, InMemoryNetwork.initializeNetwork spec (.new [] spec.nodes spec.links) 0 0 0 false = .ok (net, s) ∧
      net.host ipA = some a ∧ net.host ipB = some b ∧ P net s a b = true := by
  unfold simulateHosts at h
  split at h
  · simp at h
  · rename_i net s hinit
    split at h
    · rename_i a b ha hb
      exact ⟨net, s, a, b, hinit, ha, hb, h⟩
    · simp at h

end QuicWorkbench
