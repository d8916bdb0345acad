import QuicWorkbench.Transmit
import QuicWorkbench.Lib.MaxHeap

/-!
# Inbound queues

The packets on their way over a link (or waiting for the application of a host), by arrival time.
`NextPacketDelivery` is the future that hands out the packets that have arrived. `poll` is its
`Future::poll` at a clock value `now`; where it answers `pending`, the result says what the polling
task is registered with.
-/

namespace QuicWorkbench

/-- In transit data, sorted by arrival time. -/
structure PrioritizedInTransitData where
  data : InTransitData
  sent : Nat
  delay : Nat
  deriving DecidableEq

namespace PrioritizedInTransitData

def arrivalTime (p : PrioritizedInTransitData) : Nat := p.sent + p.delay

/-- The order is reversed, so the "max" in transit data will be the next one to be sent. -/
def cmp (self other : PrioritizedInTransitData) : Ordering :=
  (compare other.arrivalTime self.arrivalTime).then (compare other.data.number self.data.number)

instance : Std.TransCmp cmp where
  eq_swap := by
    intro a b
    rw [cmp, cmp, Ordering.swap_then, Nat.compare_swap, Nat.compare_swap]
  isLE_trans := by
    intro a b c hab hbc
    simp only [cmp, Ordering.isLE_then_iff_or, Nat.isLE_compare, Nat.compare_eq_lt, Nat.compare_eq_eq] at *
    omega

/-- What `p` compares at most `q` means: `p` arrives no earlier than `q`, ties going by number. -/
theorem isLE_cmp {p q : PrioritizedInTransitData} :
    (cmp p q).isLE ↔ q.arrivalTime < p.arrivalTime ∨
      q.arrivalTime = p.arrivalTime ∧ q.data.number ≤ p.data.number := by
  simp only [cmp, Ordering.isLE_then_iff_or, Nat.isLE_compare, Nat.compare_eq_lt, Nat.compare_eq_eq]

theorem arrivalTime_le_of_isLE {p q : PrioritizedInTransitData} (h : (cmp p q).isLE) :
    q.arrivalTime ≤ p.arrivalTime := by
  rcases isLE_cmp.1 h with h | ⟨h, -⟩ <;> omega

end PrioritizedInTransitData

structure DeliveredTransmit where
  data : InTransitData
  sent : Nat
  deriving DecidableEq

def PrioritizedInTransitData.deliver (p : PrioritizedInTransitData) : DeliveredTransmit :=
  { data := p.data, sent := p.sent }

/-- The task that a waker wakes. -/
abbrev Waker := Nat

structure InboundQueue where
  queue : List PrioritizedInTransitData
  notifyNewTransmits : List Waker

namespace InboundQueue

def new : InboundQueue := { queue := [], notifyNewTransmits := [] }

/-- The queue after the push, and the wakers drained and woken by it. -/
def send (q : InboundQueue) (data : InTransitData) (delay : Nat) (now : Nat) (slot : Nat) :
    InboundQueue × List Waker :=
  ({ queue := MaxHeap.push slot { data, sent := now, delay } q.queue, notifyNewTransmits := [] },
    q.notifyNewTransmits)

def peek (q : InboundQueue) : Option PrioritizedInTransitData :=
  MaxHeap.peek PrioritizedInTransitData.cmp q.queue

def pop (q : InboundQueue) : Option (PrioritizedInTransitData × InboundQueue) :=
  (MaxHeap.popMax PrioritizedInTransitData.cmp q.queue).map fun (p, rest) => (p, { q with queue := rest })

end InboundQueue

/-- The future. `sleep` is the deadline of the cached timer. -/
structure NextPacketDelivery where
  sleep : Option Nat
  maxTransmits : Nat

/-- What the last poller of a pending future is registered with. -/
inductive WakeSource
  | timer (deadline : Nat)
  | newTransmits
  deriving DecidableEq

inductive DeliveryPoll
  | pending (source : WakeSource)
  | ready (delivered : List DeliveredTransmit)
  deriving DecidableEq

namespace NextPacketDelivery

def new (maxTransmits : Nat) : NextPacketDelivery := { sleep := none, maxTransmits }

/-- The state of the poll loop. -/
structure Loop where
  delivery : NextPacketDelivery
  queue : InboundQueue
  delivered : List DeliveredTransmit

/-- Behind the loop: hand out what was found, or register for new transmits. -/
def finish (waker : Waker) (l : Loop) : DeliveryPoll × NextPacketDelivery × InboundQueue :=
  if l.delivered.isEmpty then
    (.pending .newTransmits, l.delivery,
      { l.queue with notifyNewTransmits := l.queue.notifyNewTransmits ++ [waker] })
  else (.ready l.delivered, l.delivery, l.queue)

/-- The second half of an iteration; `rest` are the iterations after it. -/
def next (now : Nat) (waker : Waker) (rest : Loop → DeliveryPoll × NextPacketDelivery × InboundQueue)
    (l : Loop) : DeliveryPoll × NextPacketDelivery × InboundQueue :=
  match l.queue.pop with
  | none => finish waker l
  | some (p, queue) =>
    if now < p.arrivalTime then rest { l with delivery := { l.delivery with sleep := some p.arrivalTime } }
    else rest { l with queue, delivered := l.delivered ++ [p.deliver] }

/-- The `loop` of `poll`. An iteration pops a packet or starts a sleep that ends the loop in the
next one, so `fuel` above the length of the queue plus one is never used up. -/
def pollLoop (now : Nat) (waker : Waker) : Nat → Loop → DeliveryPoll × NextPacketDelivery × InboundQueue
  | 0, l => finish waker l
  | fuel + 1, l =>
    if l.delivery.maxTransmits ≤ l.delivered.length then finish waker l
    else
      match l.delivery.sleep with
      | some deadline =>
        -- instead of sleeping, the packets found so far are handed out
        if !l.delivered.isEmpty then finish waker l
        -- `ready!`: the timer is pending, and only the timer has the waker
        else if now < deadline then (.pending (.timer deadline), l.delivery, l.queue)
        else next now waker (pollLoop now waker fuel) { l with delivery := { l.delivery with sleep := none } }
      | none => next now waker (pollLoop now waker fuel) l

def poll (d : NextPacketDelivery) (q : InboundQueue) (now : Nat) (waker : Waker) :
    DeliveryPoll × NextPacketDelivery × InboundQueue :=
  pollLoop now waker (q.queue.length + 2) { delivery := d, queue := q, delivered := [] }

end NextPacketDelivery

end QuicWorkbench
