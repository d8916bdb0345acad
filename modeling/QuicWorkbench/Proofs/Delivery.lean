import QuicWorkbench.Lib.Machine
import QuicWorkbench.Proofs.Poll

/-!
# Delivery on time

One delivery future over one inbound queue, run by a task that polls it whenever it likes. A push
wakes the wakers that it drains; a timer wakes its last poller once the clock reaches its deadline.

While the future sleeps, its waker is with the timer only (`ready!` returns before the registration
for new transmits), and a poll before the deadline answers from the timer without looking at the
queue. So a packet pushed for an earlier time than the deadline waits for the deadline
(`early_push_is_late`). Without such a push everything arrives on time: the invariant is that the
deadline of the cached timer is never after an arrival (`DeliveryWorld.Punctual`).
-/

namespace QuicWorkbench
open NextPacketDelivery PrioritizedInTransitData

structure DeliveryWorld where
  now : Nat
  queue : InboundQueue
  delivery : NextPacketDelivery
  /-- What the last poll left the waker with, if it was pending. -/
  waiting : Option WakeSource
  /-- The task was woken since its last poll. -/
  woken : Bool

inductive DeliveryAction
  | advance (by_ : Nat)
  | send (data : InTransitData) (delay slot : Nat)
  | poll

namespace DeliveryWorld

/-- The waker of the polling task. -/
def self : Waker := 0

/-- The timer that the task waits for has reached its deadline. -/
def timerFired (waiting : Option WakeSource) (now : Nat) : Bool :=
  match waiting with
  | some (.timer deadline) => deadline ≤ now
  | _ => false

/-- The world after a poll with the given result. -/
def polled (w : DeliveryWorld) : DeliveryPoll × NextPacketDelivery × InboundQueue → DeliveryWorld
  | (.pending source, delivery, queue) => { w with queue, delivery, waiting := some source, woken := false }
  | (.ready _, delivery, queue) => { w with queue, delivery, waiting := none, woken := false }

def step (w : DeliveryWorld) : DeliveryAction → Option DeliveryWorld
  | .advance d =>
    let now := w.now + d
    some { w with now, woken := w.woken || timerFired w.waiting now }
  | .send data delay slot =>
    let (queue, wakers) := w.queue.send data delay w.now slot
    some { w with queue, woken := w.woken || wakers.contains self }
  | .poll => some (w.polled (w.delivery.poll w.queue w.now self))

def machine : Machine DeliveryWorld DeliveryAction := ⟨step⟩

/-- A future that was just created, over any queue. -/
def start (now : Nat) (queue : InboundQueue) (maxTransmits : Nat) : DeliveryWorld :=
  { now, queue, delivery := .new maxTransmits, waiting := none, woken := false }

/-- If a queued packet has arrived, a pending future has been woken, and a poll hands out the packets
that have arrived, in order and up to the limit. -/
def OnTime (w : DeliveryWorld) : Prop :=
  (∃ p ∈ w.queue.queue, p.arrivalTime ≤ w.now) →
    (w.waiting.isSome → w.woken) ∧
    ∃ batch rest, (w.delivery.poll w.queue w.now self).1 = .ready (batch.map deliver) ∧
      Due w.now w.delivery.maxTransmits w.queue.queue batch rest

/-- A push does not arrive before the deadline of the cached timer. -/
def NotBeforeSleep (w : DeliveryWorld) : DeliveryAction → Prop
  | .send _ delay _ => ∀ deadline, w.delivery.sleep = some deadline → deadline ≤ w.now + delay
  | _ => True

instance (w : DeliveryWorld) (a : DeliveryAction) : Decidable (w.NotBeforeSleep a) :=
  match a with
  | .send _ delay _ => decidable_of_iff (w.delivery.sleep.all (· ≤ w.now + delay))
      (by simp [NotBeforeSleep, Option.all_eq_true])
  | .advance _ | .poll => isTrue trivial

/-- The cached timer ends no later than the first arrival, and the waker is where it is needed. -/
structure Punctual (w : DeliveryWorld) : Prop where
  limit : 0 < w.delivery.maxTransmits
  sleep : ∀ deadline, w.delivery.sleep = some deadline → ∀ p ∈ w.queue.queue, deadline ≤ p.arrivalTime
  timer : ∀ deadline, w.waiting = some (.timer deadline) →
    w.delivery.sleep = some deadline ∧ (deadline ≤ w.now → w.woken)
  newTransmits : w.waiting = some .newTransmits →
    (w.queue.queue = [] ∧ self ∈ w.queue.notifyNewTransmits) ∨ w.woken

theorem punctual_start (now : Nat) (queue : InboundQueue) {maxTransmits : Nat} (h : 0 < maxTransmits) :
    (start now queue maxTransmits).Punctual :=
  ⟨h, by simp [start, NextPacketDelivery.new], by simp [start], by simp [start]⟩

namespace Punctual

variable {w w' : DeliveryWorld}

theorem advance (h : w.Punctual) (d : Nat) (hs : w.step (.advance d) = some w') : w'.Punctual := by
  obtain rfl := Option.some.inj hs
  refine ⟨h.limit, h.sleep, fun deadline hw => ⟨(h.timer deadline hw).1, fun hd => ?_⟩, fun hw => ?_⟩
  · have hw : w.waiting = some (.timer deadline) := hw
    have hd : deadline ≤ w.now + d := hd
    simp [timerFired, hw, hd]
  · rcases h.newTransmits hw with hq | hwoken
    · exact .inl hq
    · exact .inr (by simp [hwoken])

theorem send (h : w.Punctual) {data : InTransitData} {delay slot : Nat}
    (hC : w.NotBeforeSleep (.send data delay slot)) (hs : w.step (.send data delay slot) = some w') :
    w'.Punctual := by
  obtain rfl := Option.some.inj hs
  refine ⟨h.limit, fun deadline hd p hp => ?_, fun deadline hw => ⟨(h.timer deadline hw).1, fun hd => ?_⟩,
    fun hw => ?_⟩
  · rcases MaxHeap.mem_push.1 hp with rfl | hp
    · exact hC deadline hd
    · exact h.sleep deadline hd p hp
  · have := (h.timer deadline hw).2 hd
    simp [this]
  · -- the push drains the waker of a future that waits for new transmits
    rcases h.newTransmits hw with ⟨-, hmem⟩ | hwoken
    · exact .inr (by simp [hmem])
    · exact .inr (by simp [hwoken])

theorem poll (h : w.Punctual) (hs : w.step .poll = some w') : w'.Punctual := by
  have hpoll := poll_cases w.delivery w.queue w.now self h.limit
  rw [DeliveryWorld.step, Option.some.injEq] at hs
  rw [← hs]
  generalize w.delivery.poll w.queue w.now self = r at hpoll
  cases hpoll with
  | asleep deadline hsleep hlt =>
    refine ⟨h.limit, h.sleep, fun deadline' hw => ?_, by simp [polled]⟩
    obtain rfl : deadline = deadline' := by simpa [polled] using hw
    exact ⟨hsleep, fun hle => absurd hlt (Nat.not_lt.2 hle)⟩
  | empty _ hq =>
    exact ⟨h.limit, by simp [polled], by simp [polled], fun _ => .inl ⟨hq, by simp [polled]⟩⟩
  | early _ p hp hmin hlt =>
    refine ⟨h.limit, fun deadline hd r hr => ?_, fun deadline hw => ?_, by simp [polled]⟩
    · obtain rfl : p.arrivalTime = deadline := by simpa [polled] using hd
      exact hmin.arrivalTime_le hr
    · obtain rfl : p.arrivalTime = deadline := by simpa [polled] using hw
      exact ⟨rfl, fun hle => absurd hlt (Nat.not_lt.2 hle)⟩
  | ready _ batch rest sleep hne hdue htimer =>
    refine ⟨h.limit, fun deadline hd r hr => ?_, by simp [polled], by simp [polled]⟩
    cases htimer with
    | off => simp [polled] at hd
    | on p hp hmin hlt =>
      obtain rfl : p.arrivalTime = deadline := by simpa [polled] using hd
      exact hmin.arrivalTime_le hr

theorem step (h : w.Punctual) {a : DeliveryAction} (hC : w.NotBeforeSleep a) (hs : w.step a = some w') :
    w'.Punctual := by
  cases a with
  | advance d => exact h.advance d hs
  | send data delay slot => exact h.send hC hs
  | poll => exact h.poll hs

theorem onTime (h : w.Punctual) : w.OnTime := by
  rintro ⟨p, hp, harrived⟩
  refine ⟨fun hw => ?_, ?_⟩
  · cases hwait : w.waiting with
    | none => simp [hwait] at hw
    | some source =>
      cases source with
      | timer deadline =>
        obtain ⟨hsleep, hwoken⟩ := h.timer deadline hwait
        exact hwoken ((h.sleep deadline hsleep p hp).trans harrived)
      | newTransmits =>
        rcases h.newTransmits hwait with ⟨hq, -⟩ | hwoken
        · simp [hq] at hp
        · exact hwoken
  · have hpoll := poll_cases w.delivery w.queue w.now self h.limit
    generalize w.delivery.poll w.queue w.now self = r at hpoll
    cases hpoll with
    | asleep deadline hsleep hlt => have := h.sleep deadline hsleep p hp; omega
    | empty _ hq => simp [hq] at hp
    | early _ q _ hmin hlt => have := hmin.arrivalTime_le hp; omega
    | ready _ batch rest sleep _ hdue => exact ⟨batch, rest, rfl, hdue⟩

end Punctual

theorem punctual_run {w w' : DeliveryWorld} {as : List DeliveryAction} (h : w.Punctual)
    (hC : machine.Guarded NotBeforeSleep w as) (hrun : machine.run w as = some w') : w'.Punctual :=
  Machine.run_invariant_of_guarded (fun _ _ _ hI hC hs => Punctual.step hI hC hs) hC h hrun

/-- A push for an earlier time than the deadline of the cached timer is late at its own arrival. -/
theorem early_push_is_late {w : DeliveryWorld} (hmax : 0 < w.delivery.maxTransmits) {data : InTransitData}
    {delay slot : Nat} (hC : ¬ w.NotBeforeSleep (.send data delay slot)) :
    ∃ w', machine.run w [.send data delay slot, .advance delay] = some w' ∧ ¬ w'.OnTime := by
  simp only [NotBeforeSleep, not_forall] at hC
  obtain ⟨deadline, hsleep, hlt⟩ := hC
  refine ⟨_, rfl, fun hontime => ?_⟩
  obtain ⟨-, batch, rest, hready, -⟩ := hontime
    ⟨⟨data, w.now, delay⟩, MaxHeap.mem_push.2 (.inl rfl), Nat.le_refl _⟩
  rw [poll_of_asleep hsleep (by simpa using hlt) hmax] at hready
  exact DeliveryPoll.noConfusion hready

/-- A packet without contents. -/
def packet : InTransitData :=
  { id := 1
    duplicate := false
    sourceId := "A"
    sourceEndpoint := ⟨⟨.v4 1, hostPort⟩⟩
    transmit := { destination := ⟨.v4 2, hostPort⟩, ecn := none, contents := [], segmentSize := none }
    number := 0 }

/-- The future sleeps for a packet that arrives at 10 when one is pushed that arrives at 5: at 5, the
future was not woken. -/
theorem late_behind_sleep : ∃ w, machine.run (start 0 .new usizeMax)
    [.poll, .send packet 10 0, .poll, .send packet 5 0, .advance 5] = some w ∧ ¬ w.OnTime := by
  refine ⟨_, rfl, fun hontime => ?_⟩
  have hwoken := (hontime ⟨⟨packet, 0, 5⟩, by decide +kernel, by decide +kernel⟩).1 (by decide +kernel)
  exact absurd hwoken (by decide +kernel)

/-- A future with a positive limit delivers on time in every run in which no packet is pushed for a
time before the deadline of the cached timer, and such a push breaks it. -/
theorem onTime_of_notBeforeSleep (now : Nat) (queue : InboundQueue) {maxTransmits : Nat}
    (hmax : 0 < maxTransmits) (as : List DeliveryAction) (w : DeliveryWorld)
    (hC : machine.Guarded NotBeforeSleep (start now queue maxTransmits) as)
    (hrun : machine.run (start now queue maxTransmits) as = some w) :
    w.OnTime ∧ ∀ data delay slot, ¬ w.NotBeforeSleep (.send data delay slot) →
      ∃ w', machine.run w [.send data delay slot, .advance delay] = some w' ∧ ¬ w'.OnTime :=
  have h := punctual_run (punctual_start now queue hmax) hC hrun
  ⟨h.onTime, fun _ _ _ hC => early_push_is_late h.limit hC⟩

/-- Two packets, the second one arriving after the first one: at its arrival, the first one is handed
out. -/
theorem onTime_in_order : ∃ w, machine.run (start 0 .new usizeMax)
      [.poll, .send packet 10 0, .poll, .send packet 20 0, .advance 10] = some w ∧
    (∃ p ∈ w.queue.queue, p.arrivalTime ≤ w.now) ∧ w.OnTime := by
  refine ⟨_, rfl, ⟨⟨packet, 0, 10⟩, by decide +kernel, by decide +kernel⟩, ?_⟩
  refine (onTime_of_notBeforeSleep 0 .new (by decide) [.poll, .send packet 10 0, .poll, .send packet 20 0, .advance 10]
    _ (by decide +kernel) rfl).1

end DeliveryWorld
end QuicWorkbench
