import QuicWorkbench.Lib.Rounds
import QuicWorkbench.Proofs.Hops
import QuicWorkbench.Proofs.Hosts
import QuicWorkbench.Proofs.Throughput

/-!
# Runs of the throughput test

A run of the test is one of the network, whose sends are rounds of the client: the load that it offers is bounded in every
window of time. What the server notes has been sent, and had the time to travel. What the test reports is the peak of
what arrived in any window.
-/

namespace QuicWorkbench
namespace Throughput

def intervalDuration : Nat := Duration.fromMillis sendIntervalMs

/-- The payload of the send. -/
def payloadBytes (x : Sending) : Nat := x.transmit.contents.length

/-- The client sends zeros. -/
def IsPacket (o : Options) (client : NodeIx) (x : Sending) : Prop :=
  x.node = client ∧ ∃ size, 0 < size ∧ size ≤ maxBytesPerTransmit ∧ x.transmit = transmit o size

theorem IsPacket.payloadBytes_le {o : Options} {client : NodeIx} {x : Sending} (h : IsPacket o client x) :
    payloadBytes x ≤ maxBytesPerTransmit := by
  obtain ⟨-, size, -, hsize, htransmit⟩ := h
  rw [payloadBytes, htransmit, transmit, List.length_replicate]
  exact hsize

variable {net : InMemoryNetwork} {spec : NetworkSpec} {o : Options} {bps : Nat} {server client : NodeIx} {sends : List Sending}
  {s₀ s s' : State} {w w' : World}

/-! ### Sending -/

/-- What the packets of an interval are, as far as they are sent. -/
structure SendsAll (net : InMemoryNetwork) (o : Options) (client : NodeIx) (bytes : Nat) (s : State)
    (result : Except State State) (new : List Sending) : Prop where
  ran : Ran net s new (State.settled result)
  packets : ∀ x ∈ new, IsPacket o client x ∧ x.time = s.now
  bytes_le : (new.map payloadBytes).sum ≤ bytes
  bytes_eq : ∀ s', result = .ok s' → (new.map payloadBytes).sum = bytes
  now : (State.settled result).now = s.now
  sockets : (State.settled result).sockets = s.sockets

/-- The induction is on the bytes that are left. -/
theorem exists_sendAll {endpoint : UdpEndpoint} (hhost : (net.node client).udpEndpoint = some endpoint) (bytes : Nat)
    (draws : Nat → Uuid × Draws) (s : State) :
    ∃ result new, sendAll net o client bytes draws s = some result ∧ SendsAll net o client bytes s result new := by
  induction bytes using Nat.strong_induction_on generalizing draws s with
  | _ bytes ih =>
    rw [sendAll]
    split_ifs with hzero
    · exact ⟨_, [], rfl, ⟨.refl, by simp, Nat.zero_le _, fun _ _ => hzero.symm, rfl, rfl⟩⟩
    · have hsize : 0 < min maxBytesPerTransmit bytes ∧ min maxBytesPerTransmit bytes ≤ bytes :=
        ⟨by rw [maxBytesPerTransmit]; omega, Nat.min_le_right ..⟩
      dsimp only
      generalize hsize' : min maxBytesPerTransmit bytes = size at hsize ⊢
      have hle : size ≤ maxBytesPerTransmit := hsize' ▸ Nat.min_le_left ..
      obtain ⟨result, hresult⟩ := State.exists_sendFrom (s := s) hhost (transmit o size) rfl (draws 0).1 (draws 0).2
      have hstep := State.trySend_of_sendFrom hresult
      have hran : Ran net s [⟨s.now, client, transmit o size⟩] (State.settled result) := .single (a := .trySend _ _ _ _) hstep
      obtain ⟨kinds, hstretch⟩ := Stretches.trySend hstep
      have hsockets := (Announces.trySend hstep).sockets
      have hpacket : IsPacket o client ⟨s.now, client, transmit o size⟩ := ⟨rfl, size, hsize.1, hle, rfl⟩
      have hbytes : payloadBytes ⟨s.now, client, transmit o size⟩ = size := List.length_replicate
      simp only [hresult]
      cases result with
      | error s' =>
        refine ⟨_, _, rfl, ⟨hran, by simpa using hpacket, ?_, by simp, hstretch.now, hsockets⟩⟩
        rw [List.map_singleton, List.sum_singleton, hbytes]
        exact hsize.2
      | ok s' =>
        obtain ⟨result, new, hresult', hsends⟩ := ih (bytes - size) (by omega) (fun k => draws (k + 1)) s'
        refine ⟨result, _, hresult', ⟨hran.trans hsends.ran, fun x hx => ?_, ?_, fun s'' hs'' => ?_,
          hsends.now.trans hstretch.now, hsends.sockets.trans hsockets⟩⟩
        · rcases List.mem_append.1 hx with hx | hx
          · rw [List.mem_singleton.1 hx]
            exact ⟨hpacket, rfl⟩
          · exact ⟨(hsends.packets x hx).1, (hsends.packets x hx).2.trans hstretch.now⟩
        · have := hsends.bytes_le
          rw [List.map_append, List.sum_append, List.map_singleton, List.sum_singleton, hbytes]
          omega
        · have := hsends.bytes_eq s'' hs''
          rw [List.map_append, List.sum_append, List.map_singleton, List.sum_singleton, hbytes]
          omega

/-- The sends are rounds of the client, an interval apart. -/
structure Offers (o : Options) (client : NodeIx) (bytes : Nat) (sends : List Sending) (sender : Sender)
    (rounds : List (Nat × List Sending)) : Prop where
  flat : sends = rounds.flatMap Prod.snd
  packets : ∀ r ∈ rounds, ∀ x ∈ r.2, IsPacket o client x ∧ x.time = r.1
  bytes_le : ∀ r ∈ rounds, (r.2.map payloadBytes).sum ≤ bytes
  bytes_eq : sender ≠ .panicked → ∀ r ∈ rounds, (r.2.map payloadBytes).sum = bytes
  spaced : Rounds.Spaced intervalDuration (rounds.map Prod.fst)
  sleeping : ∀ deadline, sender = .sleeping deadline → ∀ t ∈ (rounds.map Prod.fst).getLast?, t + intervalDuration ≤ deadline

namespace Offers
variable {bytes : Nat} {sender : Sender} {rounds : List (Nat × List Sending)}

theorem isPacket (h : Offers o client bytes sends sender rounds) {x : Sending} (hx : x ∈ sends) : IsPacket o client x := by
  rw [h.flat] at hx
  obtain ⟨r, hr, hx⟩ := List.mem_flatMap.1 hx
  exact (h.packets r hr x hx).1

theorem round (h : Offers o client bytes sends sender rounds) {deadline : Nat} (hsender : sender = .sleeping deadline)
    (hdue : deadline ≤ s.now) {result : Except State State} {new : List Sending}
    (hsends : SendsAll net o client bytes s result new) {sender' : Sender}
    (hsender' : (sender' = .panicked) ∨ (∃ s', result = .ok s') ∧ sender' = .sleeping (s.now + intervalDuration)) :
    Offers o client bytes (sends ++ new) sender' (rounds ++ [(s.now, new)]) where
  flat := by rw [h.flat, List.flatMap_append, List.flatMap_singleton]
  packets r hr := by
    rcases List.mem_append.1 hr with hr | hr
    · exact h.packets r hr
    · rw [List.mem_singleton.1 hr]
      exact hsends.packets
  bytes_le r hr := by
    rcases List.mem_append.1 hr with hr | hr
    · exact h.bytes_le r hr
    · rw [List.mem_singleton.1 hr]
      exact hsends.bytes_le
  bytes_eq hne r hr := by
    rcases List.mem_append.1 hr with hr | hr
    · exact h.bytes_eq (by rw [hsender]; simp) r hr
    · obtain ⟨⟨s', hs'⟩, -⟩ := hsender'.resolve_left hne
      rw [List.mem_singleton.1 hr]
      exact hsends.bytes_eq s' hs'
  spaced := by
    rw [List.map_append]
    exact h.spaced.snoc fun t ht => (h.sleeping deadline hsender t ht).trans hdue
  sleeping deadline' hdeadline' t ht := by
    rw [List.map_append, List.map_singleton, List.getLast?_append, List.getLast?_singleton, Option.some_or] at ht
    obtain rfl : s.now = t := Option.some.inj ht
    rcases hsender' with hsender' | ⟨-, hsender'⟩
    · rw [hsender'] at hdeadline'
      simp at hdeadline'
    · rw [hsender'] at hdeadline'
      exact Nat.le_of_eq (Sender.sleeping.inj hdeadline')

theorem stop (h : Offers o client bytes sends sender rounds) (hne : sender ≠ .panicked) :
    Offers o client bytes sends .done rounds :=
  { h with bytes_eq := fun _ => h.bytes_eq hne, sleeping := by simp }

end Offers

/-! ### Receiving -/

/-- What the server noted had been sent, and had the time to get there. -/
def Explained (net : InMemoryNetwork) (server client : NodeIx) (sends : List Sending) (p : Nat × Nat) : Prop :=
  ∃ x ∈ sends, payloadBytes x = p.2 ∧ ∃ D, Travels net.Linked client D server ∧ x.time + D ≤ net.simulationStart + p.1

/-- The notes of the server, in the order of their times. -/
structure Notes (net : InMemoryNetwork) (server client : NodeIx) (sends : List Sending) (now : Nat) (notes : List (Nat × Nat)) :
    Prop where
  explained : ∀ p ∈ notes, Explained net server client sends p
  sorted : notes.Pairwise fun p q => p.1 ≤ q.1
  past : ∀ p ∈ notes, p.1 ≤ now - net.simulationStart

namespace Notes
variable {now now' : Nat} {notes : List (Nat × Nat)}

theorem mono (h : Notes net server client sends now notes) (hle : now ≤ now') (new : List Sending) :
    Notes net server client (sends ++ new) now' notes where
  explained p hp := by
    obtain ⟨x, hx, hrest⟩ := h.explained p hp
    exact ⟨x, List.mem_append_left _ hx, hrest⟩
  sorted := h.sorted
  past p hp := (h.past p hp).trans (Nat.sub_le_sub_right hle _)

theorem explained_of_cameTo (hosts : Hosts net spec o.serverIp o.clientIp server client)
    (hsends : ∀ x ∈ sends, IsPacket o client x) {e : PrioritizedInTransitData} (he : CameTo net sends s server e) :
    e.udpPacket.sourceAddr = ⟨o.clientIp, hostPort⟩ ∧
      Explained net server client sends (s.now - net.simulationStart, e.udpPacket.payload.length) := by
  obtain ⟨x, D, hx, hdesc, htravels, hle⟩ := he.sentAs
  have hx := List.mem_of_getElem? hx
  obtain ⟨hnode, -⟩ := hsends x hx
  have hendpoint := hdesc.endpoint
  rw [hnode, hosts.client] at hendpoint
  obtain ⟨ecn, htransmit⟩ := hdesc.transmit
  refine ⟨by rw [PrioritizedInTransitData.udpPacket, ← Option.some.inj hendpoint], x, hx, ?_, D, hnode ▸ htravels, by omega⟩
  rw [PrioritizedInTransitData.udpPacket, htransmit, payloadBytes]

theorem exists_noteAll (h : Notes net server client sends now notes) (packets : List UdpPacket)
    (hpackets : ∀ packet ∈ packets, packet.sourceAddr = ⟨o.clientIp, hostPort⟩ ∧
      Explained net server client sends (now - net.simulationStart, packet.payload.length)) :
    ∃ notes', noteAll o (now - net.simulationStart) packets notes = some notes' ∧ Notes net server client sends now notes' := by
  induction packets generalizing notes with
  | nil => exact ⟨notes, rfl, h⟩
  | cons packet packets ih =>
    obtain ⟨hsource, hexplained⟩ := hpackets packet (List.mem_cons_self ..)
    rw [noteAll, if_neg (by simp [hsource])]
    refine ih ⟨fun p hp => ?_, ?_, fun p hp => ?_⟩ fun packet' hpacket' => hpackets packet' (List.mem_cons_of_mem _ hpacket')
    · rcases List.mem_append.1 hp with hp | hp
      · exact h.explained p hp
      · exact List.mem_singleton.1 hp ▸ hexplained
    · exact List.pairwise_append.2 ⟨h.sorted, List.pairwise_singleton .., fun p hp q hq => List.mem_singleton.1 hq ▸ h.past p hp⟩
    · rcases List.mem_append.1 hp with hp | hp
      · exact h.past p hp
      · exact Nat.le_of_eq (congrArg Prod.fst (List.mem_singleton.1 hp))

end Notes

/-! ### Windows -/

/-- The bytes noted in the window that begins at the instant. -/
def bytesInWindowFrom (a : Nat) (notes : List (Nat × Nat)) : Nat :=
  ((notes.filter fun p => a ≤ p.1 ∧ p.1 ≤ a + windowDuration).map Prod.snd).sum

/-- The maximum over the notes of the throughput when they come. -/
def peak (notes : List (Nat × Nat)) : Nat := (mapAlong throughputAt notes).foldl max 0

theorem peak_snoc (notes : List (Nat × Nat)) (q : Nat × Nat) : peak (notes ++ [q]) = max (peak notes) (throughputAt notes q) := by
  rw [peak, mapAlong_snoc, List.foldl_append]
  rfl

theorem bytesInWindowFrom_snoc (a : Nat) (notes : List (Nat × Nat)) (q : Nat × Nat) : bytesInWindowFrom a (notes ++ [q]) =
    bytesInWindowFrom a notes + if a ≤ q.1 ∧ q.1 ≤ a + windowDuration then q.2 else 0 := by
  rw [bytesInWindowFrom, List.filter_append, List.map_append, List.sum_append]
  split_ifs with h <;> simp [h, bytesInWindowFrom]

/-- A window that a note is in ends no later than the next ones come, so it has no more bytes than the one that ends with
the last note in it. -/
theorem bytesInWindowFrom_le_peak {notes : List (Nat × Nat)} (hsorted : notes.Pairwise fun p q => p.1 ≤ q.1) (a : Nat) :
    80 * bytesInWindowFrom a notes ≤ peak notes := by
  induction notes using List.reverseRecOn with
  | nil => exact Nat.zero_le _
  | append_singleton notes q ih =>
    have ih := ih (List.pairwise_append.1 hsorted).1
    rw [peak_snoc]
    by_cases hin : a ≤ q.1 ∧ q.1 ≤ a + windowDuration
    · refine Nat.le_trans ?_ (Nat.le_max_right ..)
      rw [throughputAt, bytesInWindowFrom]
      refine Nat.mul_le_mul_left _ ((List.Sublist.map _ ?_).sum_le_sum fun _ _ => Nat.zero_le _)
      exact List.monotone_filter_right _ fun p hp => by
        simp only [decide_eq_true_eq] at hp ⊢
        omega
    · rw [bytesInWindowFrom_snoc, if_neg hin]
      exact ih.trans (Nat.le_max_left ..)

theorem exists_peak {notes : List (Nat × Nat)} (hsorted : notes.Pairwise fun p q => p.1 ≤ q.1) :
    ∃ a, peak notes = 80 * bytesInWindowFrom a notes := by
  induction notes using List.reverseRecOn with
  | nil => exact ⟨0, rfl⟩
  | append_singleton notes q ih =>
    obtain ⟨hnotes, -, hlast⟩ := List.pairwise_append.1 hsorted
    obtain ⟨a, ha⟩ := ih hnotes
    have hle := bytesInWindowFrom_le_peak hsorted
    rw [peak_snoc] at hle ⊢
    rcases Nat.le_total (throughputAt notes q) (peak notes) with hold | hnew
    · have hle := hle a
      rw [Nat.max_eq_left hold, ha, bytesInWindowFrom_snoc] at hle
      exact ⟨a, by rw [Nat.max_eq_left hold, ha, bytesInWindowFrom_snoc]; omega⟩
    · refine ⟨q.1 - windowDuration, ?_⟩
      rw [Nat.max_eq_right hnew, throughputAt, bytesInWindowFrom]
      refine congrArg (fun notes => 80 * (List.map Prod.snd notes).sum) (List.filter_congr fun p hp => ?_)
      have hp : p.1 ≤ q.1 := by
        rcases List.mem_append.1 hp with hp | hp
        · exact hlast p hp q (List.mem_singleton_self q)
        · rw [List.mem_singleton.1 hp]
      rw [decide_eq_decide]
      omega

/-- What the test computes is the peak. -/
theorem maxSmoothedThroughputBps_eq_peak {notes : List (Nat × Nat)} (hsorted : notes.Pairwise fun p q => p.1 ≤ q.1) :
    maxSmoothedThroughputBps notes = some (peak notes) := by
  have hrun := SlidingWindow.foldlM_push Prod.snd rate ages_gone hsorted
  have hfold := Smoothing.foldlM_add_ofWindow notes {}
  rw [funext₂ rateAt_eq] at hrun
  rw [hrun] at hfold
  exact congrArg (Option.map Smoothing.maxSmoothedThroughputBps) hfold

/-! ### Steps -/

structure TestInv (net : InMemoryNetwork) (o : Options) (bps : Nat) (server client : NodeIx) (s₀ : State)
    (sends : List Sending) (rounds : List (Nat × List Sending)) (w : World) : Prop where
  ran : Ran net s₀ sends w.state
  offers : Offers o client (sendBytesPerInterval bps) sends w.sender rounds
  notes : Notes net server client sends w.state.now w.arrivedPackets
  slots : w.serverSlots.Sized 1200 20
  sockets : ∀ i delivery, w.state.sockets i = some delivery → delivery = .new 20
  reported : ∀ bps, w.main = .reported bps → w.serverDone ∧ bps = peak w.arrivedPackets

section
variable {networkEvents : NetworkEvents} {simulationStart started now : Nat} {disableTimeWarping : Bool}
  {rounds : List (Nat × List Sending)} (hosts : Hosts net spec o.serverIp o.clientIp server client)
  (hinit : InMemoryNetwork.initializeNetwork spec networkEvents simulationStart started now disableTimeWarping = .ok (net, s₀))
  (hnow : simulationStart ≤ now)
include hosts hinit hnow

theorem TestInv.receive (h : TestInv net o bps server client s₀ sends rounds w) (hserver : w.serverDone = false) :
    ∃ w', w.receive net o server = some w' ∧ TestInv net o bps server client s₀ sends rounds w' := by
  unfold World.receive
  split_ifs with hcancelled
  · exact ⟨_, rfl, { h with reported := fun bps hbps => ⟨rfl, (h.reported bps hbps).2⟩ }⟩
  · have htraced : Traced net sends w.state := by
      obtain ⟨as, hrun, rfl⟩ := h.ran
      exact .of_run hinit hnow hrun
    obtain ⟨r, taken, hr, hreceives, htraced', hstill, hcame⟩ := htraced.exists_receive hosts.tables (i := server)
      (by rw [hosts.server]; rfl) (by decide) h.slots (h.sockets server) fun x hx => (h.offers.isPacket hx).payloadBytes_le
    have hran : Ran net s₀ sends r.state := by
      have hstep := h.ran.trans (.single (a := .pollRecv server w.serverSlots.metas.length) hreceives.state)
      simpa [QuicWorkbench.Action.sending] using hstep
    have hnotes := h.notes.mono (Nat.le_of_eq hstill.symm) []
    rw [List.append_nil] at hnotes
    obtain ⟨notes, heq, hnotes⟩ := hnotes.exists_noteAll (o := o) (r.packets.getD []) fun packet hpacket => by
      rw [hreceives.packets] at hpacket
      obtain ⟨e, he, rfl⟩ := List.mem_map.1 hpacket
      exact Notes.explained_of_cameTo hosts (fun x hx => h.offers.isPacket hx) (hcame e he)
    refine ⟨{ w with state := r.state, serverSlots := r.slots, arrivedPackets := notes }, ?_, hran, h.offers, hnotes,
      hreceives.sized, hreceives.sockets_new h.sockets, fun bps hbps => ?_⟩
    · simp only [hr, heq, Option.bind_eq_bind, Option.bind_some]
    · -- a report comes after the server is done
      have := (h.reported bps hbps).1
      simp [hserver] at this

omit hosts hinit hnow in
theorem TestInv.send (h : TestInv net o bps server client s₀ sends rounds w)
    (hhost : (net.node client).udpEndpoint = some ⟨⟨o.clientIp, hostPort⟩⟩) {draws : Nat → Uuid × Draws}
    (hsend : w.send net o bps client draws = some w') :
    ∃ sends' rounds', TestInv net o bps server client s₀ sends' rounds' w' := by
  unfold World.send at hsend
  split at hsend
  · simp at hsend
  · simp at hsend
  · rename_i deadline hsender
    split_ifs at hsend with hdue hcancelled
    · obtain rfl := Option.some.inj hsend
      exact ⟨sends, rounds, { h with offers := h.offers.stop (by rw [hsender]; simp) }⟩
    · obtain ⟨result, new, hresult, hsends⟩ := exists_sendAll (o := o) hhost (sendBytesPerInterval bps) draws w.state
      have hran := h.ran.trans hsends.ran
      have hnotes := h.notes.mono (Nat.le_of_eq hsends.now.symm) new
      have hsockets : ∀ i delivery, (State.settled result).sockets i = some delivery → delivery = .new 20 :=
        fun i delivery hi => h.sockets i delivery (by rwa [hsends.sockets] at hi)
      rw [hresult] at hsend
      cases result with
      | error state =>
        obtain rfl := Option.some.inj hsend
        exact ⟨_, _, hran, h.offers.round hsender (Nat.not_lt.1 hdue) hsends (.inl rfl), hnotes, h.slots, hsockets, h.reported⟩
      | ok state =>
        have hstill : state.now = w.state.now := hsends.now
        obtain rfl := Option.some.inj hsend
        refine ⟨_, _, hran, h.offers.round hsender (Nat.not_lt.1 hdue) hsends (.inr ⟨⟨_, rfl⟩, ?_⟩), hnotes, h.slots, hsockets,
          h.reported⟩
        rw [hstill, intervalDuration]

omit hosts hinit hnow in
theorem TestInv.conclude (h : TestInv net o bps server client s₀ sends rounds w) (hstep : w.conclude = some w') :
    TestInv net o bps server client s₀ sends rounds w' := by
  unfold World.conclude at hstep
  split at hstep
  · split_ifs at hstep
    obtain rfl := Option.some.inj hstep
    exact { h with reported := by simp }
  · split_ifs at hstep with hdone
    rw [maxSmoothedThroughputBps_eq_peak h.notes.sorted] at hstep
    obtain rfl := Option.some.inj hstep
    exact { h with reported := fun bps hbps => ⟨hdone, (Main.reported.inj hbps).symm⟩ }
  · simp at hstep

omit hosts hinit hnow in
theorem TestInv.network {a : QuicWorkbench.Action} (h : TestInv net o bps server client s₀ sends rounds w)
    (hinternal : a.isInternal) (hstep : net.step w.state a = some s') :
    TestInv net o bps server client s₀ sends rounds { w with state := s' } := by
  have hsending : a.sending w.state = none := by
    cases a <;> first | rfl | simp [QuicWorkbench.Action.isInternal] at hinternal
  have hannounces := Announces.step hstep (by rintro i metaLen rfl; simp [QuicWorkbench.Action.isInternal] at hinternal)
  have hran := h.ran.trans (.single hstep)
  have hnotes := h.notes.mono hannounces.now []
  rw [List.append_nil] at hnotes
  rw [hsending, Option.toList_none, List.append_nil] at hran
  exact ⟨hran, h.offers, hnotes, h.slots, fun i delivery hi => h.sockets i delivery (hannounces.sockets ▸ hi), h.reported⟩

theorem TestInv.step {a : Action} (h : TestInv net o bps server client s₀ sends rounds w)
    (hstep : w.step net o bps server client a = some w') :
    ∃ sends' rounds', TestInv net o bps server client s₀ sends' rounds' w' := by
  cases a with
  | network a =>
    rw [World.step] at hstep
    split_ifs at hstep with hinternal
    obtain ⟨s', hs', rfl⟩ := Option.map_eq_some_iff.1 hstep
    exact ⟨sends, rounds, h.network hinternal hs'⟩
  | server =>
    rw [World.step] at hstep
    split_ifs at hstep with hdone
    obtain ⟨w'', hw'', hinv⟩ := h.receive hosts hinit hnow (Bool.eq_false_iff.2 hdone)
    obtain rfl := Option.some.inj (hw''.symm.trans hstep)
    exact ⟨sends, rounds, hinv⟩
  | sender draws => exact h.send hosts.client hstep
  | main => exact ⟨sends, rounds, h.conclude hstep⟩

theorem testInv_of_run {as : List Action} (hrun : (machine net o bps server client).run (start o s₀) as = some w) :
    ∃ sends rounds, TestInv net o bps server client s₀ sends rounds w := by
  have hstart : TestInv net o bps server client s₀ [] [] (start o s₀) :=
    { ran := .refl
      offers := ⟨rfl, by simp, by simp, by simp, .nil, by simp⟩
      notes := ⟨by simp [start], by simp [start], by simp [start]⟩
      slots := Slots.sized_new ..
      sockets := fun i delivery hi => by
        have hi : s₀.sockets i = some delivery := hi
        simp [Announced.sockets_initialized hinit i] at hi
      reported := by simp [start] }
  exact Machine.run_invariant (M := machine net o bps server client)
    (I := fun w => ∃ sends rounds, TestInv net o bps server client s₀ sends rounds w)
    (fun _ _ _ ⟨_, _, h⟩ hstep => h.step hosts hinit hnow hstep) ⟨[], [], hstart⟩ hrun

end

/-! ### Results -/

section
variable {networkEvents : NetworkEvents} {simulationStart started now : Nat} {disableTimeWarping : Bool} {as : List Action}

/-- A run of the test is a run of the network, in which only the client sends, to the server and not more than 1200 bytes at
once: whole rounds, unless it panics. In a window of time it sends no more than the bytes of an interval in as many intervals
as fit, and one more. -/
theorem offered_of_run
    (hinit : InMemoryNetwork.initializeNetwork spec networkEvents simulationStart started now disableTimeWarping = .ok (net, s₀))
    (hnow : simulationStart ≤ now) (hserver : net.host o.serverIp = some server) (hclient : net.host o.clientIp = some client)
    (hrun : (machine net o bps server client).run (start o s₀) as = some w) :
    ∃ as', net.machine.run s₀ as' = some w.state ∧ (∀ x ∈ sendings net s₀ as', IsPacket o client x) ∧
      (w.sender ≠ .panicked → sendBytesPerInterval bps ∣ ((sendings net s₀ as').map payloadBytes).sum) ∧
      ∀ a d, (((sendings net s₀ as').filter fun x => a ≤ x.time ∧ x.time ≤ a + d).map payloadBytes).sum ≤
        (d / intervalDuration + 1) * sendBytesPerInterval bps := by
  obtain ⟨sends, rounds, h⟩ := testInv_of_run (.of_host hinit hserver hclient) hinit hnow hrun
  obtain ⟨as', hrun', rfl⟩ := h.ran
  refine ⟨as', hrun', fun x hx => h.offers.isPacket hx, fun hne => ?_, fun a d => ?_⟩
  · rw [h.offers.flat, Rounds.sum_eq_length_mul (h.offers.bytes_eq hne)]
    exact Nat.dvd_mul_left ..
  · have hwindow := Rounds.sum_window_le (show 0 < intervalDuration by decide) h.offers.spaced
      (fun r hr x hx => (h.offers.packets r hr x hx).2) h.offers.bytes_le a d
    rwa [← h.offers.flat] at hwindow

/-- What the server notes has been sent, with as many bytes, and had the time to get there. While the server reads, it does not
run into a failing assertion, and when it is done, the report does not underflow. -/
theorem noted_of_run
    (hinit : InMemoryNetwork.initializeNetwork spec networkEvents simulationStart started now disableTimeWarping = .ok (net, s₀))
    (hnow : simulationStart ≤ now) (hserver : net.host o.serverIp = some server) (hclient : net.host o.clientIp = some client)
    (hrun : (machine net o bps server client).run (start o s₀) as = some w) :
    (∃ as', net.machine.run s₀ as' = some w.state ∧
      ∀ p ∈ w.arrivedPackets, Explained net server client (sendings net s₀ as') p) ∧
      (w.serverDone = false → ∃ w', w.step net o bps server client .server = some w') ∧
      (w.serverDone → w.main = .joining → ∃ w', w.step net o bps server client .main = some w') := by
  have hosts : Hosts net spec o.serverIp o.clientIp server client := .of_host hinit hserver hclient
  obtain ⟨sends, rounds, h⟩ := testInv_of_run hosts hinit hnow hrun
  refine ⟨?_, fun hdone => ?_, fun hdone hmain => ?_⟩
  · obtain ⟨as', hrun', rfl⟩ := h.ran
    exact ⟨as', hrun', h.notes.explained⟩
  · obtain ⟨w', hw', -⟩ := h.receive hosts hinit hnow hdone
    exact ⟨w', by rw [World.step, hdone]; exact hw'⟩
  · refine ⟨{ w with main := .reported (peak w.arrivedPackets) }, ?_⟩
    rw [World.step, World.conclude, hmain]
    simp [hdone, maxSmoothedThroughputBps_eq_peak h.notes.sorted]

/-- The maximum that the test reports is the peak of what arrived in any window of 100 ms: no window exceeds it, and some
window attains it. -/
theorem reported_of_run
    (hinit : InMemoryNetwork.initializeNetwork spec networkEvents simulationStart started now disableTimeWarping = .ok (net, s₀))
    (hnow : simulationStart ≤ now) (hserver : net.host o.serverIp = some server) (hclient : net.host o.clientIp = some client)
    (hrun : (machine net o bps server client).run (start o s₀) as = some w) {reported : Nat}
    (hreported : w.main = .reported reported) :
    (∀ a, 80 * bytesInWindowFrom a w.arrivedPackets ≤ reported) ∧ ∃ a, reported = 80 * bytesInWindowFrom a w.arrivedPackets := by
  obtain ⟨sends, rounds, h⟩ := testInv_of_run (.of_host hinit hserver hclient) hinit hnow hrun
  obtain ⟨-, rfl⟩ := h.reported reported hreported
  exact ⟨bytesInWindowFrom_le_peak h.notes.sorted, exists_peak h.notes.sorted⟩

end

/-! ### Two packets -/

/-- 100 bytes every 50 ms, from `A` to `B`. -/
def trickle : Options :=
  { serverIp := .v4 HostPair.b
    clientIp := .v4 HostPair.a₁
    duration := Duration.fromMillis 55
    sendBps := some 16000 }

/-- A packet arrives, 5 ms after it was sent. -/
def trip (uuid : Uuid) : List Action :=
  [.sender fun _ => (uuid, HostPair.draws 0), .network (.nodeTask 0 HostPair.rolls), .network (.linkTask 0 0),
    .network (.advance (Duration.fromMillis 5)), .network (HostPair.forward 0), .server]

/-- Two packets arrive, and the test reports. -/
def twoPackets : List Action :=
  trip 0 ++ [.network (.advance (Duration.fromMillis 45))] ++ trip 1 ++ [.main, .server, .main]

theorem exists_of_simulateTrickle (as : List Action) {P : World → Bool}
    (h : simulateHosts hostLoop trickle.serverIp trickle.clientIp fun net s server client =>
      ((machine net trickle 16000 server client).run (start trickle s) as).any P) :
    ∃ net s₀ server client w, InMemoryNetwork.initializeNetwork hostLoop (.new [] hostLoop.nodes hostLoop.links) 0 0 0 false =
      .ok (net, s₀) ∧ net.host trickle.serverIp = some server ∧ net.host trickle.clientIp = some client ∧
      (machine net trickle 16000 server client).run (start trickle s₀) as = some w ∧ P w = true := by
  obtain ⟨net, s₀, server, client, hinit, hserver, hclient, h⟩ := exists_of_simulateHosts h
  obtain ⟨w, hrun, hw⟩ := (Option.any_eq_true ..).1 h
  exact ⟨net, s₀, server, client, w, hinit, hserver, hclient, hrun, hw⟩

theorem offered_hostLoop : ∃ net s₀ server client w, sendBps trickle hostLoop = some 16000 ∧
    (machine net trickle 16000 server client).run (start trickle s₀) twoPackets = some w ∧ w.sender ≠ .panicked ∧
    ∃ as', net.machine.run s₀ as' = some w.state ∧ (∀ x ∈ sendings net s₀ as', IsPacket trickle client x) ∧
      (w.sender ≠ .panicked → sendBytesPerInterval 16000 ∣ ((sendings net s₀ as').map payloadBytes).sum) ∧
      ∀ a d, (((sendings net s₀ as').filter fun x => a ≤ x.time ∧ x.time ≤ a + d).map payloadBytes).sum ≤
        (d / intervalDuration + 1) * sendBytesPerInterval 16000 := by
  obtain ⟨net, s₀, server, client, w, hinit, hserver, hclient, hrun, hw⟩ := exists_of_simulateTrickle twoPackets
    (P := fun w => decide (w.sender ≠ .panicked)) (by decide +kernel)
  exact ⟨net, s₀, server, client, w, by decide, hrun, of_decide_eq_true hw,
    offered_of_run hinit (Nat.le_refl _) hserver hclient hrun⟩

theorem noted_hostLoop : ∃ net s₀ server client w,
    (machine net trickle 16000 server client).run (start trickle s₀) (trip 0) = some w ∧
    w.arrivedPackets = [(Duration.fromMillis 5, 100)] ∧
    (∃ as', net.machine.run s₀ as' = some w.state ∧
      ∀ p ∈ w.arrivedPackets, Explained net server client (sendings net s₀ as') p) ∧
      (w.serverDone = false → ∃ w', w.step net trickle 16000 server client .server = some w') ∧
      (w.serverDone → w.main = .joining → ∃ w', w.step net trickle 16000 server client .main = some w') := by
  obtain ⟨net, s₀, server, client, w, hinit, hserver, hclient, hrun, hw⟩ := exists_of_simulateTrickle (trip 0)
    (P := fun w => decide (w.arrivedPackets = [(Duration.fromMillis 5, 100)])) (by decide +kernel)
  exact ⟨net, s₀, server, client, w, hrun, of_decide_eq_true hw,
    noted_of_run hinit (Nat.le_refl _) hserver hclient hrun⟩

theorem reported_hostLoop : ∃ net s₀ server client w,
    (machine net trickle 16000 server client).run (start trickle s₀) twoPackets = some w ∧ w.main = .reported 16000 ∧
    (∀ a, 80 * bytesInWindowFrom a w.arrivedPackets ≤ 16000) ∧ ∃ a, 16000 = 80 * bytesInWindowFrom a w.arrivedPackets := by
  obtain ⟨net, s₀, server, client, w, hinit, hserver, hclient, hrun, hw⟩ := exists_of_simulateTrickle twoPackets
    (P := fun w => decide (w.main = .reported 16000)) (by decide +kernel)
  have hreported := of_decide_eq_true hw
  exact ⟨net, s₀, server, client, w, hrun, hreported, reported_of_run hinit (Nat.le_refl _) hserver hclient hrun hreported⟩

end Throughput
end QuicWorkbench
