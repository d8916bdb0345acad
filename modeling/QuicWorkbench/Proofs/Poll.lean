import QuicWorkbench.Network.InboundQueue

/-!
# What one poll of a delivery future does

`poll_cases` says everything a poll can do (`Polled`): it is pending on the cached timer, it waits for
the next arrival or for the next push, or it hands out a non-empty batch. The proof follows the loop
(`pollLoop_settle`): once the future is awake, the iterations pop the due packets in order and the
last one settles the rest.
-/

namespace QuicWorkbench
namespace NextPacketDelivery
open PrioritizedInTransitData

/-- The future is not held back by its cached timer. -/
def Awake (d : NextPacketDelivery) (now : Nat) : Prop :=
  ∀ deadline, d.sleep = some deadline → deadline ≤ now

instance (d : NextPacketDelivery) (now : Nat) : Decidable (d.Awake now) :=
  decidable_of_iff (d.sleep.all (· ≤ now)) (by simp [Awake, Option.all_eq_true])

/-- `p` arrives first among `q`, ties going by number. -/
def Earliest (p : PrioritizedInTransitData) (q : List PrioritizedInTransitData) : Prop :=
  ∀ r ∈ q, (cmp r p).isLE

theorem Earliest.arrivalTime_le {p r : PrioritizedInTransitData} {q : List PrioritizedInTransitData}
    (h : Earliest p q) (hr : r ∈ q) : p.arrivalTime ≤ r.arrivalTime :=
  arrivalTime_le_of_isLE (h r hr)

/-- `batch` are the packets of `q` due at `now`, in order and at most `limit` of them, `rest` are the
others. -/
structure Due (now limit : Nat) (q batch rest : List PrioritizedInTransitData) : Prop where
  perm : q.Perm (batch ++ rest)
  due : ∀ p ∈ batch, p.arrivalTime ≤ now
  length_le : batch.length ≤ limit
  sorted : batch.Pairwise fun p r => (cmp r p).isLE
  earlier : ∀ p ∈ batch, Earliest p rest
  all : batch.length < limit → ∀ r ∈ rest, now < r.arrivalTime

/-- The cached timer that a loop leaves behind with `rest` in the queue. -/
inductive Timer (now : Nat) (full : Prop) (rest : List PrioritizedInTransitData) : Option Nat → Prop
  | off (h : full ∨ rest = []) : Timer now full rest none
  | on (p : PrioritizedInTransitData) (hp : p ∈ rest) (hmin : Earliest p rest) (h : now < p.arrivalTime)
      (hfull : ¬ full) : Timer now full rest (some p.arrivalTime)

/-- The end of a poll that found `found`, left `queue` and the cached timer `sleep`. -/
def settle (waker : Waker) (d : NextPacketDelivery) (queue : InboundQueue) (found : List DeliveredTransmit)
    (sleep : Option Nat) : DeliveryPoll × NextPacketDelivery × InboundQueue :=
  match found, sleep with
  | [], some deadline => (.pending (.timer deadline), { d with sleep }, queue)
  | [], none =>
    (.pending .newTransmits, { d with sleep },
      { queue with notifyNewTransmits := queue.notifyNewTransmits ++ [waker] })
  | found, sleep => (.ready found, { d with sleep }, queue)

variable {now : Nat} {waker : Waker} {l : Loop}

theorem finish_eq_settle (waker : Waker) (l : Loop) (h : l.delivery.sleep = none ∨ l.delivered ≠ []) :
    finish waker l = settle waker l.delivery l.queue l.delivered l.delivery.sleep := by
  obtain ⟨⟨sleep, m⟩, q, delivered⟩ := l
  cases delivered with
  | nil =>
    obtain rfl : sleep = none := by simpa using h
    simp [finish, settle]
  | cons x xs => simp [finish, settle]

theorem pop_eq_some {q q' : InboundQueue} {p : PrioritizedInTransitData} (h : q.pop = some (p, q')) :
    MaxHeap.popMax cmp q.queue = some (p, q'.queue) ∧ q' = { q with queue := q'.queue } := by
  obtain ⟨⟨p', rest⟩, hpop, heq⟩ := Option.map_eq_some_iff.1 h
  obtain ⟨rfl, rfl⟩ := by simpa using heq
  exact ⟨hpop, rfl⟩

theorem pop_eq_none {q : InboundQueue} : q.pop = none ↔ q.queue = [] := by
  rw [InboundQueue.pop, Option.map_eq_none_iff, MaxHeap.popMax_eq_none]

theorem Due.nil {limit : Nat} {q : List PrioritizedInTransitData} (h : limit = 0 ∨ ∀ r ∈ q, now < r.arrivalTime) :
    Due now limit q [] q where
  perm := List.Perm.refl _
  due := by simp
  length_le := Nat.zero_le _
  sorted := List.Pairwise.nil
  earlier := by simp
  all := fun hlt => by
    rcases h with h | h
    · simp [h] at hlt
    · exact h

theorem Due.cons {limit : Nat} {p : PrioritizedInTransitData} {q q' batch rest : List PrioritizedInTransitData}
    (hpop : MaxHeap.popMax cmp q = some (p, q')) (hp : p.arrivalTime ≤ now) (h : Due now limit q' batch rest) :
    Due now (limit + 1) q (p :: batch) rest where
  perm := (MaxHeap.popMax_perm hpop).trans (h.perm.cons p)
  due := fun r hr => by
    rcases List.mem_cons.1 hr with rfl | hr
    · exact hp
    · exact h.due r hr
  length_le := Nat.succ_le_succ h.length_le
  sorted := List.pairwise_cons.2 ⟨fun r hr => MaxHeap.le_popMax hpop
    (MaxHeap.mem_of_mem_popMax hpop (h.perm.mem_iff.2 (by simp [hr]))), h.sorted⟩
  earlier := fun r hr => by
    rcases List.mem_cons.1 hr with rfl | hr
    · exact fun s hs => MaxHeap.le_popMax hpop
        (MaxHeap.mem_of_mem_popMax hpop (h.perm.mem_iff.2 (by simp [hs])))
    · exact h.earlier r hr
  all := fun hlt => h.all (by simpa using hlt)

theorem pollLoop_of_awake {fuel : Nat} (hfull : l.delivered.length < l.delivery.maxTransmits)
    (hsleep : l.delivery.sleep = none) : pollLoop now waker (fuel + 1) l = next now waker (pollLoop now waker fuel) l := by
  rw [pollLoop, if_neg (Nat.not_le.2 hfull), hsleep]

/-- The loop of an awake future. The induction is on the fuel, which stays above the length of the
queue; each iteration pops one due packet or is the last or the last but one. -/
theorem pollLoop_settle (fuel : Nat) (l : Loop) (hfuel : l.queue.queue.length + 1 ≤ fuel)
    (hsleep : l.delivery.sleep = none) (hlimit : l.delivered.length ≤ l.delivery.maxTransmits)
    (hmax : 0 < l.delivery.maxTransmits) :
    ∃ batch rest sleep, Due now (l.delivery.maxTransmits - l.delivered.length) l.queue.queue batch rest ∧
      Timer now (batch.length = l.delivery.maxTransmits - l.delivered.length) rest sleep ∧
      (batch = [] → rest = l.queue.queue) ∧
      pollLoop now waker fuel l = settle waker l.delivery { l.queue with queue := rest }
        (l.delivered ++ batch.map deliver) sleep := by
  induction fuel generalizing l with
  | zero => omega
  | succ fuel ih =>
    by_cases hfull : l.delivery.maxTransmits ≤ l.delivered.length
    · -- the limit is reached
      refine ⟨[], l.queue.queue, none, Due.nil (.inl (by omega)), .off (.inl (by simp; omega)), fun _ => rfl, ?_⟩
      rw [pollLoop, if_pos hfull, finish_eq_settle waker l (.inl hsleep), hsleep]
      simp
    rw [pollLoop_of_awake (by omega) hsleep, next]
    cases hpop : l.queue.pop with
    | none =>
      have hq := pop_eq_none.1 hpop
      refine ⟨[], l.queue.queue, none, Due.nil (.inr (by simp [hq])), .off (.inr hq), fun _ => rfl, ?_⟩
      simp only [finish_eq_settle waker l (.inl hsleep), hsleep, List.map_nil, List.append_nil]
    | some pq =>
      obtain ⟨p, queue⟩ := pq
      obtain ⟨hmaxpop, hqueue⟩ := pop_eq_some hpop
      have hlen := MaxHeap.length_popMax hmaxpop
      by_cases hearly : now < p.arrivalTime
      · -- nothing else is due: the next iteration ends the loop
        simp only [hearly, ↓reduceIte]
        obtain ⟨fuel, rfl⟩ : ∃ n, fuel = n + 1 := ⟨fuel - 1, by omega⟩
        have hmin : Earliest p l.queue.queue := fun r hr => MaxHeap.le_popMax hmaxpop hr
        refine ⟨[], l.queue.queue, some p.arrivalTime,
          Due.nil (.inr fun r hr => Nat.lt_of_lt_of_le hearly (hmin.arrivalTime_le hr)),
          .on p (MaxHeap.mem_of_popMax hmaxpop) hmin hearly (by simp; omega), fun _ => rfl, ?_⟩
        rw [pollLoop, if_neg hfull]
        cases hd : l.delivered with
        | nil => simp [hearly, settle]
        | cons x xs => simp [finish, settle]
      · simp only [hearly, ↓reduceIte]
        obtain ⟨batch, rest, sleep, hdue, htimer, -, heq⟩ := ih
          { l with queue, delivered := l.delivered ++ [p.deliver] } (by simp only; omega) hsleep
          (by simp only [List.length_append, List.length_singleton]; omega) hmax
        simp only [List.length_append, List.length_singleton] at hdue htimer
        have hsub : l.delivery.maxTransmits - l.delivered.length =
            l.delivery.maxTransmits - (l.delivered.length + 1) + 1 := by omega
        refine ⟨p :: batch, rest, sleep, hsub ▸ Due.cons hmaxpop (by omega) hdue, ?_, by simp, ?_⟩
        · simpa [hsub] using htimer
        · rw [heq, hqueue]
          simp [List.append_assoc]

/-- Everything a poll at `now` can do. -/
inductive Polled (d : NextPacketDelivery) (q : InboundQueue) (now : Nat) (waker : Waker) :
    DeliveryPoll × NextPacketDelivery × InboundQueue → Prop
  /-- The cached timer is pending: the waker is left with it, and with it alone. -/
  | asleep (deadline : Nat) (h : d.sleep = some deadline) (hlt : now < deadline) :
      Polled d q now waker (.pending (.timer deadline), d, q)
  /-- Nothing is queued. -/
  | empty (h : d.Awake now) (hq : q.queue = []) :
      Polled d q now waker (.pending .newTransmits, { d with sleep := none },
        { q with notifyNewTransmits := q.notifyNewTransmits ++ [waker] })
  /-- Nothing has arrived. -/
  | early (h : d.Awake now) (p : PrioritizedInTransitData) (hp : p ∈ q.queue) (hmin : Earliest p q.queue)
      (hlt : now < p.arrivalTime) :
      Polled d q now waker (.pending (.timer p.arrivalTime), { d with sleep := some p.arrivalTime }, q)
  | ready (h : d.Awake now) (batch rest : List PrioritizedInTransitData) (sleep : Option Nat)
      (hne : batch ≠ []) (hdue : Due now d.maxTransmits q.queue batch rest)
      (htimer : Timer now (batch.length = d.maxTransmits) rest sleep) :
      Polled d q now waker (.ready (batch.map deliver), { d with sleep }, { q with queue := rest })

theorem poll_of_asleep {d : NextPacketDelivery} {deadline : Nat} (h : d.sleep = some deadline)
    (hlt : now < deadline) (hmax : 0 < d.maxTransmits) (q : InboundQueue) :
    d.poll q now waker = (.pending (.timer deadline), d, q) := by
  simp [poll, pollLoop, h, hlt, Nat.not_le.2 hmax]

/-- An elapsed timer is dropped, and the poll goes on as if there had been none. -/
theorem poll_of_awake {d : NextPacketDelivery} (h : d.Awake now) (hmax : 0 < d.maxTransmits)
    (q : InboundQueue) :
    d.poll q now waker = pollLoop now waker (q.queue.length + 2) ⟨{ d with sleep := none }, q, []⟩ := by
  have hloop : pollLoop now waker (q.queue.length + 2) ⟨{ d with sleep := none }, q, []⟩ =
      next now waker (pollLoop now waker (q.queue.length + 1)) ⟨{ d with sleep := none }, q, []⟩ :=
    pollLoop_of_awake (by exact hmax) rfl
  rw [hloop, poll, pollLoop, if_neg (Nat.not_le.2 (by exact hmax))]
  cases hs : d.sleep with
  | none =>
    obtain ⟨sleep, m⟩ := d
    obtain rfl : sleep = none := hs
    rfl
  | some deadline => simp [Nat.not_lt.2 (h deadline hs)]

theorem poll_cases (d : NextPacketDelivery) (q : InboundQueue) (now : Nat) (waker : Waker)
    (hmax : 0 < d.maxTransmits) : Polled d q now waker (d.poll q now waker) := by
  by_cases hawake : d.Awake now
  · rw [poll_of_awake hawake hmax]
    obtain ⟨batch, rest, sleep, hdue, htimer, hnil, hloop⟩ := pollLoop_settle
      (q.queue.length + 2) ⟨{ d with sleep := none }, q, []⟩ (by simp) rfl (by simp) hmax
    rw [hloop]
    simp only [List.length_nil, Nat.sub_zero, List.nil_append] at hdue htimer hnil ⊢
    cases batch with
    | nil =>
      obtain rfl := hnil rfl
      cases htimer with
      | off h => exact .empty hawake (h.resolve_left (by simp; omega))
      | on p hp hmin hlt => exact .early hawake p hp hmin hlt
    | cons p batch => exact .ready hawake (p :: batch) rest sleep (by simp) hdue htimer
  · simp only [Awake, not_forall] at hawake
    obtain ⟨deadline, h, hlt⟩ := hawake
    rw [poll_of_asleep h (by omega) hmax]
    exact .asleep deadline h (by omega)

/-- Whatever its limit, a poll takes packets out of the queue that are due, the earliest first, and hands them all out. -/
theorem poll_takes (d : NextPacketDelivery) (q : InboundQueue) (now : Nat) (waker : Waker) :
    ∃ batch, q.queue.Perm (batch ++ (d.poll q now waker).2.2.queue) ∧ (∀ p ∈ batch, p.arrivalTime ≤ now) ∧
      batch.length ≤ d.maxTransmits ∧ batch.Pairwise (fun p r => (cmp r p).isLE) ∧
      (∀ p ∈ batch, Earliest p (d.poll q now waker).2.2.queue) ∧
      ((∃ source, (d.poll q now waker).1 = .pending source ∧ batch = []) ∨
        (batch ≠ [] ∧ (d.poll q now waker).1 = .ready (batch.map deliver))) := by
  rcases Nat.eq_zero_or_pos d.maxTransmits with hzero | hpos
  · have heq : d.poll q now waker = finish waker ⟨d, q, []⟩ := by
      rw [poll, pollLoop, if_pos (by simp [hzero])]
    refine ⟨[], ?_, by simp, by simp, .nil, by simp, .inl ⟨.newTransmits, ?_, rfl⟩⟩ <;> rw [heq] <;> simp [finish]
  · have hpoll := poll_cases d q now waker hpos
    generalize d.poll q now waker = r at hpoll
    cases hpoll with
    | asleep deadline => exact ⟨[], by simp, by simp, by simp, .nil, by simp, .inl ⟨_, rfl, rfl⟩⟩
    | empty => exact ⟨[], by simp, by simp, by simp, .nil, by simp, .inl ⟨_, rfl, rfl⟩⟩
    | early _ p => exact ⟨[], by simp, by simp, by simp, .nil, by simp, .inl ⟨_, rfl, rfl⟩⟩
    | ready _ batch rest sleep hne hdue =>
      exact ⟨batch, hdue.perm, hdue.due, hdue.length_le, hdue.sorted, hdue.earlier, .inr ⟨hne, rfl⟩⟩

/-- How many of the queued packets have arrived. -/
def arrived (q : List PrioritizedInTransitData) (now : Nat) : Nat := q.countP fun p => p.arrivalTime ≤ now

theorem Due.length_eq {limit : Nat} {q batch rest : List PrioritizedInTransitData} (h : Due now limit q batch rest) :
    batch.length = min limit (arrived q now) := by
  have hq : arrived q now = batch.length + arrived rest now := by
    rw [arrived, h.perm.countP_eq, List.countP_append, List.countP_eq_length.2 (fun p hp => by simpa using h.due p hp)]
    rfl
  have hlen := h.length_le
  rcases Nat.lt_or_ge batch.length limit with hlt | hge
  · have hrest : arrived rest now = 0 := List.countP_eq_zero.2 fun r hr => by simpa using h.all hlt r hr
    omega
  · omega

/-- An awake future hands out what has arrived, up to its limit; a future that is held back hands out nothing. -/
theorem poll_length (d : NextPacketDelivery) (q : InboundQueue) (now : Nat) (waker : Waker) :
    (∃ source, (d.poll q now waker).1 = .pending source ∧ (d.Awake now → min d.maxTransmits (arrived q.queue now) = 0)) ∨
      ∃ delivered, (d.poll q now waker).1 = .ready delivered ∧ d.Awake now ∧
        delivered.length = min d.maxTransmits (arrived q.queue now) := by
  rcases Nat.eq_zero_or_pos d.maxTransmits with hzero | hpos
  · refine .inl ⟨.newTransmits, ?_, fun _ => by omega⟩
    rw [poll, pollLoop, if_pos (by simp [hzero])]
    simp [finish]
  · have hpoll := poll_cases d q now waker hpos
    generalize d.poll q now waker = r at hpoll
    cases hpoll with
    | asleep deadline h hlt => exact .inl ⟨_, rfl, fun hawake => absurd (hawake deadline h) (Nat.not_le.2 hlt)⟩
    | empty _ hq => exact .inl ⟨_, rfl, fun _ => by simp [hq, arrived]⟩
    | early _ p hp hmin hlt =>
      have hnone : arrived q.queue now = 0 := List.countP_eq_zero.2 fun r hr => by
        have := hmin.arrivalTime_le hr
        simp only [decide_eq_true_eq]
        omega
      exact .inl ⟨_, rfl, fun _ => by omega⟩
    | ready h batch rest sleep hne hdue =>
      refine .inr ⟨batch.map deliver, rfl, h, ?_⟩
      rw [List.length_map, hdue.length_eq]

end NextPacketDelivery
end QuicWorkbench
