import QuicWorkbench.Lib.Machine
import QuicWorkbench.Proofs.Delivery

/-!
# What an inbound queue hands out

Any number of delivery futures over one inbound queue, created, polled and kept as long as their owners like. The history
of the pushes and of the batches that were handed out is kept beside the queue: `accounted_run` says that the packets
pushed are the packets handed out and the packets queued.
-/

namespace QuicWorkbench
open NextPacketDelivery PrioritizedInTransitData

/-- A batch that a future has handed out, and what it left in the queue. -/
structure Handout where
  time : Nat
  maxTransmits : Nat
  batch : List DeliveredTransmit
  left : List PrioritizedInTransitData

structure InboundWorld where
  now : Nat
  queue : InboundQueue
  /-- The futures, in the order in which they were created. -/
  futures : List NextPacketDelivery
  sent : List PrioritizedInTransitData
  handouts : List Handout

inductive InboundAction
  | advance (by_ : Nat)
  | send (data : InTransitData) (delay slot : Nat)
  | receive (maxTransmits : Nat)
  | poll (future : Nat) (waker : Waker)

namespace InboundWorld

/-- The world after the future polled as given. -/
def polled (w : InboundWorld) (future : Nat) (maxTransmits : Nat) :
    DeliveryPoll × NextPacketDelivery × InboundQueue → InboundWorld
  | (.pending _, delivery, queue) => { w with queue, futures := w.futures.set future delivery }
  | (.ready batch, delivery, queue) =>
    { w with
      queue
      futures := w.futures.set future delivery
      handouts := w.handouts ++ [{ time := w.now, maxTransmits, batch, left := queue.queue }] }

/-- There is no step for a future that was not created. -/
def step (w : InboundWorld) : InboundAction → Option InboundWorld
  | .advance d => some { w with now := w.now + d }
  | .send data delay slot =>
    some { w with
      queue := (w.queue.send data delay w.now slot).1
      sent := w.sent ++ [{ data, sent := w.now, delay }] }
  | .receive maxTransmits => some { w with futures := w.futures ++ [.new maxTransmits] }
  | .poll future waker =>
    w.futures[future]?.map fun d => w.polled future d.maxTransmits (d.poll w.queue w.now waker)

def machine : Machine InboundWorld InboundAction := ⟨step⟩

def start (now : Nat) : InboundWorld := { now, queue := .new, futures := [], sent := [], handouts := [] }

end InboundWorld

/-- `packets` are the packets of the queue that were handed out: at least one and not more than the future may hand out,
arrived by then, in the order of arrival, ties going by number, and none of them behind one that was left. -/
structure Handout.Of (h : Handout) (packets : List PrioritizedInTransitData) : Prop where
  batch : h.batch = packets.map deliver
  nonempty : packets ≠ []
  length_le : packets.length ≤ h.maxTransmits
  arrived : ∀ p ∈ packets, p.sent + p.delay ≤ h.time
  sorted : packets.Pairwise fun p r => (cmp r p).isLE
  earliest : ∀ p ∈ packets, Earliest p h.left

namespace InboundWorld

/-- `packets` are the packets of the batches, and together with the queued ones they are the packets sent. -/
structure Accounted (w : InboundWorld) (packets : List (List PrioritizedInTransitData)) : Prop where
  handouts : List.Forall₂ Handout.Of w.handouts packets
  sent : w.sent.Perm (packets.flatten ++ w.queue.queue)

namespace Accounted

variable {w w' : InboundWorld} {packets : List (List PrioritizedInTransitData)}

theorem send (h : w.Accounted packets) {data : InTransitData} {delay slot : Nat}
    (hs : w.step (.send data delay slot) = some w') : w'.Accounted packets := by
  obtain rfl := Option.some.inj hs
  refine ⟨h.handouts, ?_⟩
  let p : PrioritizedInTransitData := { data, sent := w.now, delay }
  have hqueue : (w.queue.queue ++ [p]).Perm (MaxHeap.push slot p w.queue.queue) :=
    (List.perm_append_singleton p _).trans (MaxHeap.push_perm slot p w.queue.queue).symm
  have hsent := h.sent.append_right [p]
  rw [List.append_assoc] at hsent
  exact hsent.trans (hqueue.append_left _)

/-- A poll that hands out a batch moves it from the queue behind the batches before. -/
theorem poll (h : w.Accounted packets) {future : Nat} {waker : Waker} (hs : w.step (.poll future waker) = some w') :
    ∃ packets', w'.Accounted packets' := by
  obtain ⟨d, -, rfl⟩ := Option.map_eq_some_iff.1 hs
  obtain ⟨batch, hperm, harrived, hlen, hsorted, hearliest, hresult⟩ := d.poll_takes w.queue w.now waker
  generalize d.poll w.queue w.now waker = result at hperm hearliest hresult
  obtain ⟨result, delivery, queue⟩ := result
  rcases hresult with ⟨source, hpending, hnil⟩ | ⟨hne, hready⟩
  · subst hpending hnil
    exact ⟨packets, h.handouts, h.sent.trans (hperm.append_left _)⟩
  · obtain rfl : result = .ready (batch.map deliver) := hready
    refine ⟨packets ++ [batch], ?_, ?_⟩
    · exact List.rel_append h.handouts (.cons ⟨rfl, hne, hlen, harrived, hsorted, hearliest⟩ .nil)
    · rw [List.flatten_append, List.flatten_singleton, List.append_assoc]
      exact h.sent.trans (hperm.append_left _)

theorem step (w : InboundWorld) (a : InboundAction) (w' : InboundWorld) (h : ∃ packets, w.Accounted packets)
    (hs : w.step a = some w') : ∃ packets, w'.Accounted packets := by
  obtain ⟨packets, h⟩ := h
  cases a with
  | advance d =>
    obtain rfl := Option.some.inj hs
    exact ⟨packets, h.handouts, h.sent⟩
  | send data delay slot => exact ⟨packets, h.send hs⟩
  | receive maxTransmits =>
    obtain rfl := Option.some.inj hs
    exact ⟨packets, h.handouts, h.sent⟩
  | poll future waker => exact h.poll hs

end Accounted

/-- Whatever is sent and polled, in any order: every packet sent is in exactly one batch or still queued, and every batch
is what it should be. -/
theorem accounted_run (now : Nat) (as : List InboundAction) (w : InboundWorld) (hrun : machine.run (start now) as = some w) :
    ∃ packets, w.Accounted packets :=
  Machine.run_invariant (I := fun w : InboundWorld => ∃ packets, w.Accounted packets) Accounted.step ⟨[], .nil, .refl _⟩ hrun

/-- Two futures share the queue: the second hands out the packet that the first one waits for. -/
theorem accounted_two_futures : ∃ w, machine.run (start 0) [.receive 1, .receive 2, .send DeliveryWorld.packet 10 0,
      .poll 0 0, .send DeliveryWorld.packet 5 0, .advance 10, .poll 1 1, .poll 0 0] = some w ∧
    w.handouts.length = 1 ∧ ∃ packets, w.Accounted packets :=
  ⟨_, rfl, rfl, accounted_run 0 [.receive 1, .receive 2, .send DeliveryWorld.packet 10 0,
      .poll 0 0, .send DeliveryWorld.packet 5 0, .advance 10, .poll 1 1, .poll 0 0] _ rfl⟩

end InboundWorld
end QuicWorkbench
