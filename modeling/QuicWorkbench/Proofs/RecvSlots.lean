import QuicWorkbench.Lib.Machine
import QuicWorkbench.Network.Tasks
import QuicWorkbench.Proofs.Delivery
import QuicWorkbench.QuinnInterop

/-!
# Packets and the slots of a read

One socket, read with slices that its owner chooses anew for every call. The future is created by the first call and kept,
and with it the batch limit: a later call with fewer slots than that may take out of the queue more packets than it can
write, and the `zip` drops the rest (`delivers_iff`).
-/

namespace QuicWorkbench
open NextPacketDelivery PrioritizedInTransitData InMemoryUdpSocket

namespace InMemoryUdpSocket

variable {delivered : List DeliveredTransmit} {metas : List RecvMeta} {bufs : List (List UInt8)}
  {r : Slots × List InTransitData}

/-- The loop ends when either the packets or the slots are used up. -/
theorem read_of_fillSlots (hlen : metas.length ≤ bufs.length) (h : fillSlots delivered metas bufs = some r) :
    r.2 = (delivered.take metas.length).map (·.data) := by
  induction delivered generalizing metas bufs r with
  | nil =>
    obtain rfl := Option.some.inj h
    simp
  | cons x delivered ih =>
    cases metas with
    | nil =>
      obtain rfl := Option.some.inj h
      simp
    | cons m metas =>
      cases bufs with
      | nil => simp at hlen
      | cons buf bufs =>
        rw [fillSlots] at h
        split at h
        · simp at h
        · obtain ⟨r', hr', rfl⟩ := Option.map_eq_some_iff.1 h
          simp [ih (Nat.le_of_succ_le_succ hlen) hr']

/-- With a slot for each packet, the slots are filled in order and the others stay as they are. -/
theorem slots_of_fillSlots (hlen : metas.length ≤ bufs.length) (hfits : delivered.length ≤ metas.length)
    (h : fillSlots delivered metas bufs = some r) :
    r.1.metas = delivered.map (fun x => .ofPacket x.data) ++ metas.drop delivered.length ∧
      r.1.bufs = List.zipWith copyFromSlice bufs (delivered.map (·.data.transmit.contents)) ++
        bufs.drop delivered.length := by
  induction delivered generalizing metas bufs r with
  | nil =>
    obtain rfl := Option.some.inj h
    simp
  | cons x delivered ih =>
    cases metas with
    | nil => simp at hfits
    | cons m metas =>
      cases bufs with
      | nil => simp at hlen
      | cons buf bufs =>
        rw [fillSlots] at h
        split at h
        · simp at h
        · obtain ⟨r', hr', rfl⟩ := Option.map_eq_some_iff.1 h
          obtain ⟨hmetas, hbufs⟩ := ih (Nat.le_of_succ_le_succ hlen) (Nat.le_of_succ_le_succ hfits) hr'
          simp [hmetas, hbufs]

theorem exists_fillSlots (metas : List RecvMeta)
    (h : ∀ buf ∈ bufs, ∀ x ∈ delivered, x.data.transmit.contents.length ≤ buf.length) :
    ∃ r, fillSlots delivered metas bufs = some r := by
  induction delivered generalizing metas bufs with
  | nil => exact ⟨_, rfl⟩
  | cons x delivered ih =>
    cases metas with
    | nil => exact ⟨_, rfl⟩
    | cons m metas =>
      cases bufs with
      | nil => exact ⟨_, rfl⟩
      | cons buf bufs =>
        have hrest : ∀ b ∈ bufs, ∀ y ∈ delivered, y.data.transmit.contents.length ≤ b.length :=
          fun b hb y hy => h b (List.mem_cons_of_mem _ hb) y (List.mem_cons_of_mem _ hy)
        obtain ⟨r, hr⟩ := ih metas hrest
        have hx := h buf (List.mem_cons_self ..) x (List.mem_cons_self ..)
        rw [fillSlots, if_neg (Nat.not_lt.2 hx), hr]
        exact ⟨_, rfl⟩

end InMemoryUdpSocket

/-- A call of `poll_recv`: the queue that it finds, and the slices. -/
structure RecvCall where
  queue : InboundQueue
  slots : Slots
  recv : Recv

/-- The call took `taken` out of the queue, wrote each of these packets to a slot of its own and recorded it, and returned
how many they are. The other slots are as they were. -/
structure RecvCall.Delivers (c : RecvCall) (taken : List PrioritizedInTransitData) : Prop where
  took : c.queue.queue.Perm (taken ++ c.recv.queue.queue)
  fits : taken.length ≤ c.slots.metas.length
  result : c.recv.result.getD 0 = taken.length
  metas : c.recv.slots.metas = taken.map (RecvMeta.ofPacket ·.data) ++ c.slots.metas.drop taken.length
  bufs : c.recv.slots.bufs = List.zipWith copyFromSlice c.slots.bufs (taken.map (·.data.transmit.contents)) ++
    c.slots.bufs.drop taken.length
  read : c.recv.read = taken.map (·.data)

structure SocketWorld where
  now : Nat
  queue : InboundQueue
  nextPacketDelivery : Option NextPacketDelivery
  sent : List PrioritizedInTransitData
  calls : List RecvCall

inductive SocketAction
  | advance (by_ : Nat)
  | send (data : InTransitData) (delay slot : Nat)
  | pollRecv (slots : Slots) (waker : Waker)

namespace SocketWorld

def step (w : SocketWorld) : SocketAction → Option SocketWorld
  | .advance d => some { w with now := w.now + d }
  | .send data delay slot =>
    some { w with
      queue := (w.queue.send data delay w.now slot).1
      sent := w.sent ++ [{ data, sent := w.now, delay }] }
  | .pollRecv slots waker =>
    (pollRecv w.nextPacketDelivery w.queue w.now waker slots).map fun recv =>
      { w with
        queue := recv.queue
        nextPacketDelivery := some recv.nextPacketDelivery
        calls := w.calls ++ [{ queue := w.queue, slots, recv }] }

def machine : Machine SocketWorld SocketAction := ⟨step⟩

/-- A socket over an empty queue. -/
def start (now : Nat) : SocketWorld := { now, queue := .new, nextPacketDelivery := none, sent := [], calls := [] }

/-- The future is held back by its timer, or there is a slot for each packet that it will hand out: as many as have arrived,
up to the number of slots of the first call. -/
def EnoughSlots (w : SocketWorld) : SocketAction → Prop
  | .pollRecv slots _ =>
    let delivery := w.nextPacketDelivery.getD (.new slots.metas.length)
    delivery.Awake w.now → min delivery.maxTransmits (arrived w.queue.queue w.now) ≤ slots.metas.length
  | _ => True

instance (w : SocketWorld) (a : SocketAction) : Decidable (w.EnoughSlots a) :=
  match a with
  | .pollRecv slots _ =>
    inferInstanceAs (Decidable ((w.nextPacketDelivery.getD (.new slots.metas.length)).Awake w.now → _ ≤ _))
  | .advance _ | .send _ _ _ => isTrue trivial

variable {w w' : SocketWorld} {slots : Slots} {waker : Waker}

/-- A call delivers what it takes exactly if there are enough slots. -/
theorem delivers_iff_enoughSlots {recv : Recv}
    (h : pollRecv w.nextPacketDelivery w.queue w.now waker slots = some recv) :
    (∃ taken, RecvCall.Delivers ⟨w.queue, slots, recv⟩ taken) ↔ w.EnoughSlots (.pollRecv slots waker) := by
  have hlen : slots.metas.length ≤ slots.bufs.length := by
    by_contra hlen
    simp [pollRecv, Nat.not_le.1 hlen] at h
  rw [pollRecv, if_neg (Nat.not_lt.2 hlen)] at h
  rw [EnoughSlots]
  dsimp only at h ⊢
  generalize w.nextPacketDelivery.getD (.new slots.metas.length) = delivery at h ⊢
  obtain ⟨batch, hperm, -, -, -, -, hresult⟩ := delivery.poll_takes w.queue w.now waker
  have hlength := delivery.poll_length w.queue w.now waker
  generalize delivery.poll w.queue w.now waker = polled at h hperm hresult hlength
  obtain ⟨result, delivery', queue⟩ := polled
  rcases hresult with ⟨source, hpending, hnil⟩ | ⟨-, hready⟩
  · -- a pending call takes nothing
    subst hpending hnil
    obtain rfl := Option.some.inj h
    have hnone : delivery.Awake w.now → min delivery.maxTransmits (arrived w.queue.queue w.now) = 0 := by
      simpa using hlength
    refine iff_of_true ⟨[], hperm, Nat.zero_le _, rfl, ?_, ?_, rfl⟩ fun hawake => ?_
    · simp
    · simp
    · have := hnone hawake
      omega
  · obtain rfl : result = .ready (batch.map deliver) := hready
    obtain ⟨r, hr, rfl⟩ := Option.map_eq_some_iff.1 h
    obtain ⟨hawake, hbatch⟩ : delivery.Awake w.now ∧
        batch.length = min delivery.maxTransmits (arrived w.queue.queue w.now) := by simpa using hlength
    constructor
    · rintro ⟨taken, htaken⟩ -
      have hcount := (htaken.took.symm.trans hperm).length_eq
      have hfits := htaken.fits
      simp only [List.length_append] at hcount hfits
      omega
    · intro henough
      have hfits : batch.length ≤ slots.metas.length := hbatch ▸ henough hawake
      obtain ⟨hmetas, hbufs⟩ := slots_of_fillSlots hlen (by simpa using hfits) hr
      have hread := read_of_fillSlots hlen hr
      rw [List.take_of_length_le (by simpa using hfits)] at hread
      refine ⟨batch, hperm, hfits, by simp, ?_, ?_, ?_⟩
      · simpa [deliver, Function.comp_def] using hmetas
      · simpa [deliver, Function.comp_def] using hbufs
      · simpa [deliver, Function.comp_def] using hread

theorem step_calls {a : SocketAction} (hs : w.step a = some w') :
    (∀ call ∈ w'.calls, ∃ taken, call.Delivers taken) ↔
      (∀ call ∈ w.calls, ∃ taken, call.Delivers taken) ∧ w.EnoughSlots a := by
  cases a with
  | advance d =>
    obtain rfl := Option.some.inj hs
    simp [EnoughSlots]
  | send data delay slot =>
    obtain rfl := Option.some.inj hs
    simp [EnoughSlots]
  | pollRecv slots waker =>
    obtain ⟨recv, hrecv, rfl⟩ := Option.map_eq_some_iff.1 hs
    rw [← delivers_iff_enoughSlots hrecv]
    simp [or_imp, forall_and]

/-- With slices as promised, a call does not panic. -/
theorem exists_pollRecv (waker : Waker) (hlen : slots.metas.length ≤ slots.bufs.length)
    (hlarge : ∀ buf ∈ slots.bufs, ∀ p ∈ w.queue.queue, p.data.transmit.contents.length ≤ buf.length) :
    ∃ recv, pollRecv w.nextPacketDelivery w.queue w.now waker slots = some recv := by
  rw [pollRecv, if_neg (Nat.not_lt.2 hlen)]
  dsimp only
  generalize w.nextPacketDelivery.getD (.new slots.metas.length) = delivery
  obtain ⟨batch, hperm, -, -, -, -, hresult⟩ := delivery.poll_takes w.queue w.now waker
  generalize delivery.poll w.queue w.now waker = polled at hperm hresult
  obtain ⟨result, delivery', queue⟩ := polled
  rcases hresult with ⟨source, hpending, -⟩ | ⟨-, hready⟩
  · obtain rfl : result = .pending source := hpending
    exact ⟨_, rfl⟩
  · obtain rfl : result = .ready (batch.map deliver) := hready
    have hbufs : ∀ buf ∈ slots.bufs, ∀ x ∈ batch.map deliver, x.data.transmit.contents.length ≤ buf.length := by
      intro buf hbuf x hx
      obtain ⟨p, hp, rfl⟩ := List.mem_map.1 hx
      exact hlarge buf hbuf p (hperm.mem_iff.2 (List.mem_append_left _ hp))
    obtain ⟨r, hr⟩ := exists_fillSlots slots.metas hbufs
    simp only [hr, Option.map_some]
    exact ⟨_, rfl⟩

/-- The packets that the application has read. -/
def read (w : SocketWorld) : List InTransitData := w.calls.flatMap (·.recv.read)

/-- As long as there are enough slots, every packet sent is read or still queued. -/
theorem sent_perm_of_enoughSlots (now : Nat) {as : List SocketAction} (hC : machine.Guarded EnoughSlots (start now) as)
    (hrun : machine.run (start now) as = some w) :
    (w.sent.map (·.data)).Perm (w.read ++ w.queue.queue.map (·.data)) := by
  refine Machine.run_invariant_of_guarded (I := fun w : SocketWorld =>
    (w.sent.map (·.data)).Perm (w.read ++ w.queue.queue.map (·.data))) (fun w a w' hI henough hs => ?_) hC (.refl _) hrun
  cases a with
  | advance d =>
    obtain rfl := Option.some.inj hs
    exact hI
  | send data delay slot =>
    obtain rfl := Option.some.inj hs
    have hpush := (MaxHeap.push_perm slot ⟨data, w.now, delay⟩ w.queue.queue).map (·.data)
    have hsent := (List.perm_append_singleton data (w.sent.map (·.data))).trans (hI.cons data)
    rw [List.map_append]
    exact hsent.trans (List.perm_middle.symm.trans (hpush.symm.append_left _))
  | pollRecv slots waker =>
    obtain ⟨recv, hrecv, rfl⟩ := Option.map_eq_some_iff.1 hs
    obtain ⟨taken, htaken⟩ := (delivers_iff_enoughSlots hrecv).2 henough
    have hqueue := htaken.took.map (·.data)
    rw [List.map_append, ← htaken.read] at hqueue
    have hread : read { w with
        queue := recv.queue
        nextPacketDelivery := some recv.nextPacketDelivery
        calls := w.calls ++ [⟨w.queue, slots, recv⟩] } = w.read ++ recv.read := by simp [read]
    rw [hread, List.append_assoc]
    exact hI.trans (hqueue.append_left _)

/-- In a run of a socket all calls deliver what they take exactly if there are always enough slots, and the next call
returns. -/
theorem delivers_iff (now : Nat) (as : List SocketAction) (w : SocketWorld) (hrun : machine.run (start now) as = some w) :
    ((∀ call ∈ w.calls, ∃ taken, call.Delivers taken) ↔ machine.Guarded EnoughSlots (start now) as) ∧
      ∀ slots waker, slots.metas.length ≤ slots.bufs.length →
        (∀ buf ∈ slots.bufs, ∀ p ∈ w.queue.queue, p.data.transmit.contents.length ≤ buf.length) →
        ∃ w', w.step (.pollRecv slots waker) = some w' := by
  refine ⟨?_, fun slots waker hlen hlarge => ?_⟩
  · have hiff := Machine.run_iff_guarded (C := EnoughSlots)
      (H := fun w : SocketWorld => ∀ call ∈ w.calls, ∃ taken, call.Delivers taken) (fun _ _ _ => step_calls) hrun
    rw [hiff]
    simp [start]
  · obtain ⟨recv, hrecv⟩ := exists_pollRecv waker hlen hlarge
    rw [step, hrecv]
    exact ⟨_, rfl⟩

/-- One slot of four bytes. -/
def oneSlot : Slots :=
  { metas := [{ addr := ⟨.v4 0, 0⟩, len := 0, stride := 0, ecn := none, dstIp := none }], bufs := [[0, 0, 0, 0]] }

/-- The same slot twice. -/
def twoSlots : Slots := { metas := oneSlot.metas ++ oneSlot.metas, bufs := oneSlot.bufs ++ oneSlot.bufs }

/-- The first call has two slots and is pending. Two packets arrive, and a call with one slot takes both of them. -/
def shorterCall : List SocketAction :=
  [.pollRecv twoSlots 0, .send DeliveryWorld.packet 0 0, .send DeliveryWorld.packet 0 0, .pollRecv oneSlot 0]

theorem lost_by_shorterCall : ∃ w, machine.run (start 0) shorterCall = some w ∧
    (∀ call ∈ w.calls, call.slots.metas.length ≤ call.slots.bufs.length) ∧
    ¬ ∀ call ∈ w.calls, ∃ taken, call.Delivers taken := by
  refine ⟨_, rfl, by decide +kernel, fun h => ?_⟩
  obtain ⟨taken, htaken⟩ := h _ (List.mem_cons_of_mem _ (List.mem_cons_self ..))
  have hresult := htaken.result
  have hfits := htaken.fits
  change 2 = taken.length at hresult
  change taken.length ≤ 1 at hfits
  omega

/-- With two slots in each call, nothing is lost. -/
theorem delivers_twoSlots : ∃ w, machine.run (start 0) [.pollRecv twoSlots 0, .send DeliveryWorld.packet 0 0,
      .send DeliveryWorld.packet 0 0, .pollRecv twoSlots 0] = some w ∧
    ∀ call ∈ w.calls, ∃ taken, call.Delivers taken :=
  ⟨_, rfl, (delivers_iff 0 [.pollRecv twoSlots 0, .send DeliveryWorld.packet 0 0,
      .send DeliveryWorld.packet 0 0, .pollRecv twoSlots 0] _ rfl).1.2 (by decide +kernel)⟩

end SocketWorld

theorem InMemoryNetwork.State.pollRecv_eq {net : InMemoryNetwork} {s : State} {i : NodeIx} {slots : Slots} {recv : Recv}
    (hendpoint : (net.node i).udpEndpoint.isSome)
    (h : InMemoryUdpSocket.pollRecv (s.sockets i) (s.nodes i).inbound s.now i slots = some recv) :
    s.pollRecv net i slots.metas.length = some (recv.read.foldl (fun s d => s.trackReadByHost net i d)
      { s.setNode i { s.nodes i with inbound := recv.queue } with
        sockets := Function.update s.sockets i (some recv.nextPacketDelivery) }) := by
  obtain ⟨endpoint, hendpoint⟩ := Option.isSome_iff_exists.1 hendpoint
  rw [InMemoryUdpSocket.pollRecv] at h
  rw [State.pollRecv, hendpoint]
  split at h
  · simp at h
  · rename_i hlen
    dsimp only at h ⊢
    generalize ((s.sockets i).getD (.new slots.metas.length)).poll (s.nodes i).inbound s.now i = polled at h ⊢
    obtain ⟨result, delivery, queue⟩ := polled
    cases result with
    | pending source =>
      obtain rfl := Option.some.inj h
      rfl
    | ready delivered =>
      obtain ⟨r, hr, rfl⟩ := Option.map_eq_some_iff.1 h
      simp only [read_of_fillSlots (Nat.not_lt.1 hlen) hr, List.foldl_map]

end QuicWorkbench
