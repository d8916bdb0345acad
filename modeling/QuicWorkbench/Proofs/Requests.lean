import QuicWorkbench.Lib.Except
import QuicWorkbench.Lib.Progress
import QuicWorkbench.Quic.Requests
import Mathlib.Algebra.Order.BigOperators.Group.List
import Mathlib.Algebra.Order.Ring.Nat

/-!
# What becomes of requests

Connections never make more requests than are configured, and when all of them are closed, these are made and answered. A
connection never has more requests open than streams, and where an interval is configured, it keeps to it. The tasks only ever
wait for time, for the endpoint or for responses, and take a bounded number of steps.
-/

namespace QuicWorkbench
namespace Requests

variable {o : Options} {now now' : Nat} {c c' : Connection} {s s' : Shared}

namespace Connection

/-- The requests without a result. -/
def unanswered (c : Connection) : Nat := c.requests.countP fun r => r.result.isNone

/-- What the phase holds of the permits of `requests_semaphore`. -/
def held (c : Connection) : Nat :=
  match c.phase with
  | .sleeping _ => 1
  | _ => 0

/-- The requests that the connection has taken from the counter. -/
def taken (c : Connection) : Nat :=
  match c.phase with
  | .acquiring | .sleeping _ => c.requests.length + 1
  | _ => c.requests.length

/-- What the connection holds of the permits of `connections_semaphore`. -/
def holding (c : Connection) : Nat :=
  match c.phase with
  | .starting | .done _ => 0
  | _ => 1

theorem holding_le (c : Connection) : c.holding ≤ 1 := by
  unfold holding
  split <;> simp

/-- There were no more requests left. -/
def Exhausted (c : Connection) : Prop := (∃ k, c.phase = .joining k) ∨ c.phase = .done true

/-- How many of the tasks have been joined. -/
def joined (c : Connection) : Nat :=
  match c.phase with
  | .joining k => k
  | .done true => c.requests.length
  | _ => 0

/-- The steps that the phase has ahead, apart from requests that are left. -/
def ahead (c : Connection) : Nat :=
  match c.phase with
  | .starting => 4
  | .connecting => 3
  | .acquiring => c.requests.length + 7
  | .sleeping _ => c.requests.length + 6
  | .joining k => c.requests.length - k + 1
  | .done _ => 0

def potential (c : Connection) : Nat := c.ahead + c.unanswered

structure Inv (o : Options) (now : Nat) (c : Connection) : Prop where
  fresh : c.phase = .starting ∨ c.phase = .connecting → c.requests = []
  permits : c.permits + c.unanswered + c.held = o.concurrentStreamsPerConnection
  past : ∀ r ∈ c.requests, ∀ t ok, r.result = some (t, ok) → t ≤ now
  joined : ∀ j < c.joined, ∃ r t, c.requests[j]? = some r ∧ r.result = some (t, true)
  paced : o.concurrentStreamsPerConnection = 1 → ∀ j r r', c.requests[j]? = some r → c.requests[j + 1]? = some r' →
    ∃ t ok, r.result = some (t, ok) ∧ t + o.requestInterval ≤ r'.made
  sleeping : o.concurrentStreamsPerConnection = 1 → ∀ deadline, c.phase = .sleeping deadline →
    ∀ r : Request, c.requests.getLast? = some r → ∃ t ok, r.result = some (t, ok) ∧ t + o.requestInterval ≤ deadline

/-- What a step of a connection does to the counters. -/
structure Moves (c c' : Connection) (s s' : Shared) : Prop where
  phase : c'.phase = c.phase ∨ ∀ ok, c.phase ≠ .done ok
  taken_le : s'.requestsLeft + c'.taken ≤ s.requestsLeft + c.taken
  taken_eq : c'.phase ≠ .done false → s'.requestsLeft + c'.taken = s.requestsLeft + c.taken
  left_le : s'.requestsLeft ≤ s.requestsLeft
  exhausted : (c.Exhausted → s.requestsLeft = 0) → c'.Exhausted → s'.requestsLeft = 0
  permits : s'.connectionPermits + c'.holding = s.connectionPermits + c.holding
  potential : 6 * s'.requestsLeft + c'.potential < 6 * s.requestsLeft + c.potential

theorem unanswered_snoc (c : Connection) (made : Nat) :
    unanswered { c with requests := c.requests ++ [{ made, result := none }] } = c.unanswered + 1 := by
  rw [unanswered, List.countP_append]
  rfl

theorem Inv.permits_of_held (h : Inv o now c) (hheld : c.held = 0) :
    c.permits + c.unanswered = o.concurrentStreamsPerConnection := by
  have := h.permits
  rwa [hheld] at this

theorem Inv.mono (h : Inv o now c) (hle : now ≤ now') : Inv o now' c :=
  { h with past := fun r hr t ok ht => (h.past r hr t ok ht).trans hle }

/-! ### Steps of a connection -/

theorem takeRequest_moves {before : Connection} (alive : ∀ ok, before.phase ≠ .done ok)
    (htaken : before.taken = c.requests.length) (hholding : before.holding = 1)
    (hpotential : c.requests.length + c.unanswered + 1 < before.potential) :
    Moves before (c.takeRequest s).1 s (c.takeRequest s).2 := by
  unfold takeRequest
  split_ifs with hleft
  · have hpotential : c.requests.length - 0 + 1 + c.unanswered < before.potential := by omega
    exact ⟨.inr alive, Nat.add_le_add_left htaken.ge _, fun _ => htaken ▸ rfl, Nat.le_refl _, fun _ _ => hleft,
      by rw [hholding]; rfl, Nat.add_lt_add_left hpotential _⟩
  · have htaken : s.requestsLeft - 1 + (c.requests.length + 1) = s.requestsLeft + before.taken := by omega
    have hpotential : 6 * (s.requestsLeft - 1) + (c.requests.length + 7 + c.unanswered) <
        6 * s.requestsLeft + before.potential := by omega
    exact ⟨.inr alive, htaken.le, fun _ => htaken, Nat.sub_le .., fun _ h => by simp [Exhausted] at h,
      by rw [hholding]; rfl, hpotential⟩

theorem finish_moves {before : Connection} (alive : ∀ ok, before.phase ≠ .done ok)
    (htaken : c.requests.length ≤ before.taken) (hholding : before.holding = 1) (hpotential : c.unanswered < before.potential) :
    Moves before (c.finish s false).1 s (c.finish s false).2 := by
  have hpotential : 6 * s.requestsLeft + (0 + c.unanswered) < 6 * s.requestsLeft + before.potential := by omega
  exact ⟨.inr alive, Nat.add_le_add_left htaken _, fun h => absurd rfl h, Nat.le_refl _, fun _ h => by simp [Exhausted, finish] at h,
    by rw [hholding]; rfl, hpotential⟩

theorem inv_takeRequest (hpermits : c.permits + c.unanswered = o.concurrentStreamsPerConnection)
    (hpast : ∀ r ∈ c.requests, ∀ t ok, r.result = some (t, ok) → t ≤ now)
    (hpaced : o.concurrentStreamsPerConnection = 1 → ∀ j r r', c.requests[j]? = some r → c.requests[j + 1]? = some r' →
      ∃ t ok, r.result = some (t, ok) ∧ t + o.requestInterval ≤ r'.made) : Inv o now (c.takeRequest s).1 := by
  unfold takeRequest
  split_ifs
  · exact ⟨by simp, hpermits, hpast, fun j hj => absurd hj (Nat.not_lt_zero j), hpaced, by simp⟩
  · exact ⟨by simp, hpermits, hpast, fun j hj => absurd hj (Nat.not_lt_zero j), hpaced, by simp⟩

theorem inv_finish (hpermits : c.permits + c.unanswered = o.concurrentStreamsPerConnection)
    (hpast : ∀ r ∈ c.requests, ∀ t ok, r.result = some (t, ok) → t ≤ now)
    (hpaced : o.concurrentStreamsPerConnection = 1 → ∀ j r r', c.requests[j]? = some r → c.requests[j + 1]? = some r' →
      ∃ t ok, r.result = some (t, ok) ∧ t + o.requestInterval ≤ r'.made) : Inv o now (c.finish s false).1 :=
  ⟨by simp [finish], hpermits, hpast, fun j hj => absurd hj (Nat.not_lt_zero j), hpaced, by simp [finish]⟩

/-- The connection `before` is about to make a request, with a permit for it in hand. -/
structure Ready (o : Options) (now : Nat) (before c : Connection) : Prop where
  inv : Inv o now before
  phase : before.phase = .acquiring ∨ ∃ deadline, before.phase = .sleeping deadline
  requests : c.requests = before.requests
  permits : c.permits + 1 + c.unanswered = o.concurrentStreamsPerConnection
  paced : o.concurrentStreamsPerConnection = 1 → ∀ r : Request, c.requests.getLast? = some r →
    ∃ t ok, r.result = some (t, ok) ∧ t + o.requestInterval ≤ now

namespace Ready
variable {before : Connection}

theorem moves (h : Ready o now before c) : Moves before (c.makeRequest now s).1 s (c.makeRequest now s).2 := by
  have halive : ∀ ok, before.phase ≠ .done ok := fun ok => by
    obtain hphase | ⟨deadline, hphase⟩ := h.phase <;> simp [hphase]
  have hholding : before.holding = 1 := by
    obtain hphase | ⟨deadline, hphase⟩ := h.phase <;> simp [holding, hphase]
  have htaken : before.taken = c.requests.length + 1 := by
    obtain hphase | ⟨deadline, hphase⟩ := h.phase <;> simp [taken, hphase, h.requests]
  have hunanswered : before.unanswered = c.unanswered := by rw [unanswered, unanswered, h.requests]
  have hpotential : c.requests.length + 6 + c.unanswered ≤ before.potential := by
    obtain hphase | ⟨deadline, hphase⟩ := h.phase <;> simp [potential, ahead, hphase, h.requests, hunanswered]
  unfold makeRequest
  split_ifs
  · exact finish_moves halive (by rw [htaken]; exact Nat.le_succ _) hholding (by simp only [unanswered] at hpotential ⊢; omega)
  · refine takeRequest_moves halive (by rw [htaken, List.length_append]; rfl) hholding ?_
    rw [unanswered_snoc, List.length_append, List.length_singleton]
    omega

theorem inv_makeRequest (h : Ready o now before c) : Inv o now (c.makeRequest now s).1 := by
  have hpermits := h.permits
  have hpaced := h.inv.paced
  have hpast := h.inv.past
  rw [← h.requests] at hpaced hpast
  unfold makeRequest
  split_ifs
  · exact inv_finish hpermits hpast hpaced
  · refine inv_takeRequest ?_ (fun r hr t ok ht => ?_) fun hone j r r' hr hr' => ?_
    · rw [unanswered_snoc]
      exact (Nat.add_right_comm ..).trans hpermits
    · rcases List.mem_append.1 hr with hr | hr
      · exact hpast r hr t ok ht
      · rw [List.mem_singleton.1 hr] at ht
        simp at ht
    · -- the new request comes after the last one
      rcases Nat.lt_trichotomy (j + 1) c.requests.length with hlt | heq | hgt
      · exact hpaced hone j r r' (by rwa [List.getElem?_append_left (by omega)] at hr) (by rwa [List.getElem?_append_left hlt] at hr')
      · have hlast : c.requests.getLast? = some r := by
          rw [List.getLast?_eq_getElem?, ← heq, Nat.add_sub_cancel]
          rwa [List.getElem?_append_left (by omega)] at hr
        rw [heq, List.getElem?_concat_length] at hr'
        rw [← Option.some.inj hr']
        exact h.paced hone r hlast
      · rw [List.getElem?_eq_none (by simp; omega)] at hr'
        simp at hr'

end Ready

/-- What a poll does. -/
inductive Polled (o : Options) (now : Nat) (c : Connection) (s : Shared) : Connection × Shared → Prop
  | start (hphase : c.phase = .starting) (hpermits : s.connectionPermits ≠ 0) :
    Polled o now c s ({ c with phase := .connecting }, { s with connectionPermits := s.connectionPermits - 1 })
  | sleep (hphase : c.phase = .acquiring) (hpermits : c.permits ≠ 0) :
    Polled o now c s ({ c with permits := c.permits - 1, phase := .sleeping (now + o.requestInterval) }, s)
  | acquire (hphase : c.phase = .acquiring) (hpermits : c.permits ≠ 0)
    (hfree : c.requests.length = 0 ∨ o.requestInterval = 0) :
    Polled o now c s ({ c with permits := c.permits - 1 }.makeRequest now s)
  | wake (deadline : Nat) (hphase : c.phase = .sleeping deadline) (hdue : deadline ≤ now) :
    Polled o now c s (c.makeRequest now s)
  | join (k t : Nat) (r : Request) (hphase : c.phase = .joining k) (hk : c.requests[k]? = some r)
    (hr : r.result = some (t, true)) : Polled o now c s ({ c with phase := .joining (k + 1) }, s)
  | close (k : Nat) (hphase : c.phase = .joining k) (hk : c.requests[k]? = none) : Polled o now c s (c.finish s true)
  | fail (k : Nat) (hphase : c.phase = .joining k) (hk : k < c.requests.length) : Polled o now c s (c.finish s false)

theorem poll_cases {r : Connection × Shared} (h : c.poll o now s = some r) : Polled o now c s r := by
  unfold poll at h
  split at h
  · rename_i hphase
    split_ifs at h with hpermits
    obtain rfl := Option.some.inj h
    exact .start hphase hpermits
  · simp at h
  · rename_i hphase
    split_ifs at h with hpermits
    dsimp only at h
    split_ifs at h with hsleep
    · obtain rfl := Option.some.inj h
      exact .sleep hphase hpermits
    · obtain rfl := Option.some.inj h
      exact .acquire hphase hpermits (by omega)
  · rename_i deadline hphase
    split_ifs at h with hdue
    obtain rfl := Option.some.inj h
    exact .wake deadline hphase (Nat.not_lt.1 hdue)
  · rename_i k hphase
    split at h
    · rename_i hk
      obtain rfl := Option.some.inj h
      exact .close k hphase hk
    · simp at h
    · rename_i t hk
      obtain rfl := Option.some.inj h
      exact .join k t _ hphase hk rfl
    · rename_i hk
      obtain rfl := Option.some.inj h
      exact .fail k hphase (List.getElem?_eq_some_iff.1 hk).1
  · simp at h

theorem Inv.answered (h : Inv o now c) (hone : o.concurrentStreamsPerConnection = 1) (hpermits : c.permits ≠ 0) :
    ∀ r ∈ c.requests, ∃ t ok, r.result = some (t, ok) ∧ t ≤ now := by
  have hnone : c.unanswered = 0 := by
    have := h.permits
    omega
  intro r hr
  have hr' := List.countP_eq_zero.1 hnone r hr
  cases hresult : r.result with
  | none => simp [hresult] at hr'
  | some result => exact ⟨result.1, result.2, rfl, h.past r hr _ _ hresult⟩

theorem Inv.acquire (h : Inv o now c) (hphase : c.phase = .acquiring) (hpermits : c.permits ≠ 0)
    (hfree : c.requests.length = 0 ∨ o.requestInterval = 0) : Ready o now c { c with permits := c.permits - 1 } where
  inv := h
  phase := .inl hphase
  requests := rfl
  permits := by
    have hall := h.permits
    have hheld : c.held = 0 := by simp [held, hphase]
    simp only [unanswered] at hall ⊢
    omega
  paced hone r hr := by
    have hr := List.mem_of_getLast? hr
    obtain ⟨t, ok, hresult, hle⟩ := h.answered hone hpermits r hr
    refine ⟨t, ok, hresult, ?_⟩
    rcases hfree with hempty | hzero
    · rw [List.length_eq_zero_iff.1 hempty] at hr
      simp at hr
    · omega

theorem Inv.wake (h : Inv o now c) {deadline : Nat} (hphase : c.phase = .sleeping deadline) (hdue : deadline ≤ now) :
    Ready o now c c where
  inv := h
  phase := .inr ⟨deadline, hphase⟩
  requests := rfl
  permits := by
    have hall := h.permits
    have hheld : c.held = 1 := by simp [held, hphase]
    omega
  paced hone r hr := by
    obtain ⟨t, ok, hresult, hle⟩ := h.sleeping hone deadline hphase r hr
    exact ⟨t, ok, hresult, hle.trans hdue⟩

theorem Inv.poll (h : Inv o now c) {r : Connection × Shared} (hpoll : c.poll o now s = some r) :
    Inv o now r.1 ∧ Moves c r.1 s r.2 := by
  cases poll_cases hpoll with
  | start hphase hpermits =>
    have hall := h.permits_of_held (by rw [held, hphase])
    have hholding : s.connectionPermits - 1 + 1 = s.connectionPermits + c.holding := by
      simp only [holding, hphase]
      omega
    refine ⟨⟨fun _ => h.fresh (.inl hphase), hall, h.past, fun j hj => absurd hj (Nat.not_lt_zero j), h.paced, by simp⟩,
      .inr (by simp [hphase]), ?_, fun _ => ?_, Nat.le_refl _, by simp [Exhausted], hholding, ?_⟩
    · simp [taken, hphase]
    · simp [taken, hphase]
    · simp [potential, ahead, hphase, unanswered]
  | sleep hphase hpermits =>
    have hall := h.permits_of_held (by rw [held, hphase])
    have hall' : c.permits - 1 + c.unanswered + 1 = o.concurrentStreamsPerConnection := by omega
    refine ⟨⟨by simp, hall', h.past, fun j hj => absurd hj (Nat.not_lt_zero j), h.paced, fun hone deadline hdeadline r hr => ?_⟩,
      .inr (by simp [hphase]), ?_, fun _ => ?_, Nat.le_refl _, by simp [Exhausted], ?_, ?_⟩
    · obtain ⟨t, ok, hresult, hle⟩ := h.answered hone hpermits r (List.mem_of_getLast? hr)
      refine ⟨t, ok, hresult, ?_⟩
      rw [← Phase.sleeping.inj hdeadline]
      exact Nat.add_le_add_right hle _
    · simp [taken, hphase]
    · simp [taken, hphase]
    · simp [holding, hphase]
    · simp [potential, ahead, hphase, unanswered]
  | acquire hphase hpermits hfree =>
    have hready := h.acquire hphase hpermits hfree
    exact ⟨hready.inv_makeRequest, hready.moves⟩
  | wake deadline hphase hdue =>
    have hready := h.wake hphase hdue
    exact ⟨hready.inv_makeRequest, hready.moves⟩
  | join k t r hphase hk hr =>
    have hlt := (List.getElem?_eq_some_iff.1 hk).1
    refine ⟨⟨by simp, h.permits_of_held (by rw [held, hphase]), h.past, fun j hj => ?_, h.paced, by simp⟩,
      .inr (by simp [hphase]), ?_, fun _ => ?_, Nat.le_refl _, fun hleft _ => hleft (.inl ⟨k, hphase⟩), ?_, ?_⟩
    · rcases Nat.lt_succ_iff_lt_or_eq.1 hj with hj | rfl
      · exact h.joined j (by rwa [Connection.joined, hphase])
      · exact ⟨r, t, hk, hr⟩
    · simp [taken, hphase]
    · simp [taken, hphase]
    · simp [holding, hphase]
    · simp only [potential, ahead, hphase, unanswered]
      omega
  | close k hphase hk =>
    have hle := List.getElem?_eq_none_iff.1 hk
    refine ⟨⟨by simp [finish], h.permits_of_held (by rw [held, hphase]), h.past, fun j hj => ?_, h.paced, by simp [finish]⟩,
      .inr (by simp [hphase]), ?_, fun _ => ?_, Nat.le_refl _, fun hleft _ => hleft (.inl ⟨k, hphase⟩), ?_, ?_⟩
    · have hj : j < c.requests.length := hj
      exact h.joined j (by rw [Connection.joined, hphase]; exact Nat.lt_of_lt_of_le hj hle)
    · simp [taken, hphase, finish]
    · simp [taken, hphase, finish]
    · simp [holding, hphase, finish]
    · simp [potential, ahead, hphase, finish, unanswered]
  | fail k hphase hk =>
    refine ⟨inv_finish (h.permits_of_held (by rw [held, hphase])) h.past h.paced, finish_moves (by simp [hphase]) ?_ ?_ ?_⟩
    · simp [taken, hphase]
    · simp [holding, hphase]
    · simp [potential, ahead, hphase]

theorem Inv.connected (h : Inv o now c) {ok : Bool} {r : Connection × Shared} (hconnected : c.connected s ok = some r) :
    Inv o now r.1 ∧ Moves c r.1 s r.2 := by
  unfold Connection.connected at hconnected
  split at hconnected
  · rename_i hphase
    obtain rfl := Option.some.inj hconnected
    have hall := h.permits_of_held (by rw [held, hphase])
    have htaken : c.taken = c.requests.length := by simp [taken, hphase]
    have hholding : c.holding = 1 := by simp [holding, hphase]
    have hpotential : c.potential = c.unanswered + 3 := by simp [potential, ahead, hphase, Nat.add_comm]
    cases ok with
    | true =>
      refine ⟨inv_takeRequest hall h.past h.paced, takeRequest_moves (by simp [hphase]) htaken hholding ?_⟩
      rw [hpotential, h.fresh (.inr hphase), List.length_nil]
      omega
    | false => exact ⟨inv_finish hall h.past h.paced, finish_moves (by simp [hphase]) htaken.ge hholding (by omega)⟩
  · simp at hconnected

theorem Inv.receive (h : Inv o now c) {k : Nat} {ok : Bool} (hanswered : c.answered now k ok = some c') :
    Inv o now c' ∧ Moves c c' s s := by
  unfold Connection.answered at hanswered
  split at hanswered
  · rename_i made hk
    obtain rfl := Option.some.inj hanswered
    have hlt := (List.getElem?_eq_some_iff.1 hk).1
    have hget := (List.getElem?_eq_some_iff.1 hk).2
    have hunanswered : c.unanswered =
        (c.requests.set k { made, result := some (now, ok) }).countP (fun r => r.result.isNone) + 1 := by
      have hpos : 0 < c.requests.countP fun r => r.result.isNone :=
        List.countP_pos_iff.2 ⟨_, List.mem_of_getElem? hk, rfl⟩
      rw [List.countP_set hlt, hget, unanswered]
      simp
      omega
    have hpermits := h.permits
    rw [hunanswered] at hpermits
    have hne : ∀ j r t ok, c.requests[j]? = some r → r.result = some (t, ok) → j ≠ k := by
      rintro j r t ok hj hr rfl
      rw [hk] at hj
      rw [← Option.some.inj hj] at hr
      simp at hr
    refine ⟨⟨fun hphase => ?_, ?_, fun r hr t ok' ht => ?_, fun j hj => ?_, fun hone j r r' hr hr' => ?_,
      fun hone deadline hphase => ?_⟩, .inl rfl, ?_, fun _ => ?_, Nat.le_refl _, id, rfl, ?_⟩
    · have hnil := h.fresh hphase
      simp [hnil] at hlt
    · have hpermits : c.permits + 1 + (c.requests.set k { made, result := some (now, ok) }).countP (fun r => r.result.isNone) +
          c.held = o.concurrentStreamsPerConnection := by omega
      exact hpermits
    · rcases List.mem_or_eq_of_mem_set hr with hr | rfl
      · exact h.past r hr t ok' ht
      · exact Nat.le_of_eq (congrArg Prod.fst (Option.some.inj ht)).symm
    · obtain ⟨r, t, hj, hr⟩ := h.joined j (by simpa [Connection.joined] using hj)
      exact ⟨r, t, (List.getElem?_set_ne (hne j r t true hj hr).symm).trans hj, hr⟩
    · -- the requests are made when they were
      have hold : ∃ r₀, c.requests[j + 1]? = some r₀ ∧ r₀.made = r'.made := by
        by_cases heq : k = j + 1
        · rw [← heq, List.getElem?_set_self hlt] at hr'
          exact ⟨_, heq ▸ hk, by rw [← Option.some.inj hr']⟩
        · rw [List.getElem?_set_ne heq] at hr'
          exact ⟨r', hr', rfl⟩
      obtain ⟨r₀, hr₀, hmade⟩ := hold
      by_cases heq : k = j
      · obtain ⟨t, ok', hresult, -⟩ := h.paced hone k _ r₀ hk (heq ▸ hr₀)
        simp at hresult
      · rw [List.getElem?_set_ne heq] at hr
        obtain ⟨t, ok', hresult, hle⟩ := h.paced hone j r r₀ hr hr₀
        exact ⟨t, ok', hresult, hmade ▸ hle⟩
    · -- the permit is not with the sleep and with a request
      have hheld : c.held = 1 := by
        rw [held, show c.phase = .sleeping deadline from hphase]
      omega
    · simp [taken]
    · simp [taken]
    · have hahead : ahead { c with requests := c.requests.set k { made, result := some (now, ok) } } = c.ahead := by
        simp [ahead]
      simp only [potential, unanswered, ahead] at hahead hunanswered ⊢
      omega
  · simp at hanswered

end Connection

/-! ### Steps of the world -/

namespace World

/-- The steps that the main task has ahead, with those of connections that it has not spawned yet. -/
def mainAhead (o : Options) (w : World) : Nat :=
  match w.main with
  | .spawning _ => 5 * (o.concurrentConnections - w.connections.length) + 2 * o.concurrentConnections + 3
  | .joining k => o.concurrentConnections - k + o.concurrentConnections + 2
  | .closing handledConnections => o.concurrentConnections - handledConnections + 1
  | .done _ => 0

/-- Every step but the passing of time lowers it. -/
def potential (o : Options) (w : World) : Nat :=
  6 * w.shared.requestsLeft + (w.connections.map Connection.potential).sum + w.mainAhead o

/-- How many of the connections have been joined. -/
def joined (w : World) : Nat :=
  match w.main with
  | .joining k => k
  | .closing _ | .done true => w.connections.length
  | _ => 0

/-- The requests that the connections have taken. -/
def taken (w : World) : Nat := (w.connections.map Connection.taken).sum

structure Inv (o : Options) (w : World) : Prop where
  each : ∀ c ∈ w.connections, c.Inv o w.now
  taken_le : w.shared.requestsLeft + w.taken ≤ o.requests
  taken_eq : (∀ c ∈ w.connections, c.phase ≠ .done false) → w.shared.requestsLeft + w.taken = o.requests
  exhausted : ∀ c ∈ w.connections, c.Exhausted → w.shared.requestsLeft = 0
  permits : w.shared.connectionPermits + (w.connections.map Connection.holding).sum = o.concurrentConnections
  spawned : w.connections.length ≤ o.concurrentConnections
  all : (∀ deadline, w.main ≠ .spawning deadline) → w.connections.length = o.concurrentConnections
  joined : ∀ j < w.joined, ∃ c, w.connections[j]? = some c ∧ c.phase = .done true

variable {w w' : World}

theorem Inv.set (h : Inv o w) {i : Nat} {c : Connection} (hi : w.connections[i]? = some c) {r : Connection × Shared}
    (hinv : Connection.Inv o w.now r.1) (hmoves : Connection.Moves c r.1 w.shared r.2) :
    Inv o (w.setConnection i r) ∧ (w.setConnection i r).potential o < w.potential o := by
  have hlt := (List.getElem?_eq_some_iff.1 hi).1
  have hmem := List.mem_of_getElem? hi
  have htaken := Progress.sum_map_set hi Connection.taken r.1
  have hpotential := Progress.sum_map_set hi Connection.potential r.1
  have hholding := Progress.sum_map_set hi Connection.holding r.1
  refine ⟨⟨fun c' hc' => ?_, ?_, fun hfine => ?_, fun c' hc' hexhausted => ?_, ?_, ?_, fun hmain => ?_, fun j hj => ?_⟩, ?_⟩
  · rcases List.mem_or_eq_of_mem_set hc' with hc' | rfl
    · exact h.each c' hc'
    · exact hinv
  · have hle := h.taken_le
    have hstep := hmoves.taken_le
    simp only [World.taken, setConnection] at hle htaken ⊢
    omega
  · -- no connection has failed before, either
    have hfine' : ∀ c' ∈ w.connections, c'.phase ≠ .done false := fun c' hc' hfailed => by
      obtain ⟨j, hj, rfl⟩ := List.getElem_of_mem hc'
      by_cases heq : i = j
      · subst heq
        rw [List.getElem?_eq_getElem hj] at hi
        rw [Option.some.inj hi] at hfailed
        rcases hmoves.phase with hphase | hphase
        · exact hfine r.1 (List.mem_set hlt _) (hphase.trans hfailed)
        · exact hphase false hfailed
      · have hj' : (w.connections.set i r.1)[j]? = some w.connections[j] := by
          rw [List.getElem?_set_ne heq, List.getElem?_eq_getElem hj]
        exact hfine _ (List.mem_of_getElem? hj') hfailed
    have heq := h.taken_eq hfine'
    have hstep := hmoves.taken_eq (hfine r.1 (List.mem_set hlt _))
    simp only [World.taken, setConnection] at heq htaken ⊢
    omega
  · rcases List.mem_or_eq_of_mem_set hc' with hc' | rfl
    · exact Nat.le_zero.1 (h.exhausted c' hc' hexhausted ▸ hmoves.left_le)
    · exact hmoves.exhausted (h.exhausted c hmem) hexhausted
  · have hall := h.permits
    have hstep := hmoves.permits
    simp only [setConnection] at hholding ⊢
    omega
  · simpa [setConnection] using h.spawned
  · simpa [setConnection] using h.all hmain
  · have hj : j < w.joined := by simpa [World.joined, setConnection] using hj
    obtain ⟨c', hc', hphase⟩ := h.joined j hj
    by_cases heq : i = j
    · subst heq
      rw [hi] at hc'
      obtain rfl := Option.some.inj hc'
      refine ⟨r.1, List.getElem?_set_self hlt, ?_⟩
      rcases hmoves.phase with hsame | halive
      · exact hsame.trans hphase
      · exact absurd hphase (halive true)
    · exact ⟨c', (List.getElem?_set_ne heq).trans hc', hphase⟩
  · have hstep := hmoves.potential
    have hmain : (w.setConnection i r).mainAhead o = w.mainAhead o := by simp [mainAhead, setConnection]
    simp only [World.potential, hmain]
    simp only [setConnection]
    omega

theorem Inv.pollMain (h : Inv o w) (hstep : w.pollMain o = some w') : Inv o w' ∧ w'.potential o < w.potential o := by
  unfold World.pollMain at hstep
  split at hstep
  · rename_i deadline hmain
    split_ifs at hstep with hdue hmore
    · obtain rfl := Option.some.inj hstep
      refine ⟨⟨fun c hc => ?_, ?_, fun hfine => ?_, fun c hc hexhausted => ?_, ?_, ?_, by simp, by simp [World.joined]⟩, ?_⟩
      · rcases List.mem_append.1 hc with hc | hc
        · exact h.each c hc
        · rw [List.mem_singleton.1 hc]
          exact ⟨fun _ => rfl, rfl, by simp [Connection.new], fun j hj => absurd hj (Nat.not_lt_zero j), by simp [Connection.new],
            by simp [Connection.new]⟩
      · simpa [World.taken, Connection.new, Connection.taken] using h.taken_le
      · have := h.taken_eq fun c hc => hfine c (List.mem_append_left _ hc)
        simpa [World.taken, Connection.new, Connection.taken] using this
      · rcases List.mem_append.1 hc with hc | hc
        · exact h.exhausted c hc hexhausted
        · rw [List.mem_singleton.1 hc] at hexhausted
          simp [Connection.Exhausted, Connection.new] at hexhausted
      · simpa [Connection.new, Connection.holding] using h.permits
      · rw [List.length_append]
        exact hmore
      · have hnew : (Connection.new o).potential = 4 := rfl
        simp only [World.potential, mainAhead, hmain, List.map_append, List.map_singleton, List.sum_append, List.sum_singleton, hnew,
          List.length_append, List.length_singleton]
        omega
    · obtain rfl := Option.some.inj hstep
      have hall : w.connections.length = o.concurrentConnections := Nat.le_antisymm h.spawned (Nat.not_lt.1 hmore)
      refine ⟨{ h with all := fun _ => hall, joined := fun j hj => absurd hj (Nat.not_lt_zero j) }, ?_⟩
      simp only [World.potential, mainAhead, hmain]
      omega
  · rename_i k hmain
    have hall := h.all (by simp [hmain])
    split at hstep
    · rename_i hk
      obtain rfl := Option.some.inj hstep
      refine ⟨{ h with all := fun _ => hall, joined := fun j hj => ?_ }, ?_⟩
      · exact h.joined j (by rw [World.joined, hmain]; exact Nat.lt_of_lt_of_le hj (List.getElem?_eq_none_iff.1 hk))
      · simp only [World.potential, mainAhead, hmain]
        omega
    · rename_i c hk
      have hlt := (List.getElem?_eq_some_iff.1 hk).1
      split at hstep
      · rename_i hphase
        obtain rfl := Option.some.inj hstep
        refine ⟨{ h with all := fun _ => hall, joined := fun j hj => ?_ }, ?_⟩
        · rcases Nat.lt_succ_iff_lt_or_eq.1 hj with hj | rfl
          · exact h.joined j (by rwa [World.joined, hmain])
          · exact ⟨c, hk, hphase⟩
        · simp only [World.potential, mainAhead, hmain]
          omega
      · obtain rfl := Option.some.inj hstep
        refine ⟨{ h with all := fun _ => hall, joined := fun j hj => absurd hj (Nat.not_lt_zero j) }, ?_⟩
        simp only [World.potential, mainAhead, hmain]
        omega
      · simp at hstep
  · simp at hstep
  · simp at hstep

theorem Inv.handled (h : Inv o w) {ok : Bool} (hstep : w.handled ok = some w') : Inv o w' ∧ w'.potential o < w.potential o := by
  unfold World.handled at hstep
  split at hstep
  · rename_i n hmain
    have hall := h.all (by simp [hmain])
    have hjoined : ∀ j < w.connections.length, ∃ c, w.connections[j]? = some c ∧ c.phase = .done true := fun j hj =>
      h.joined j (by rwa [World.joined, hmain])
    split_ifs at hstep with hlt hok hlast
    · obtain rfl := Option.some.inj hstep
      refine ⟨{ h with all := fun _ => hall, joined := fun j hj => absurd hj (Nat.not_lt_zero j) }, ?_⟩
      simp only [World.potential, mainAhead, hmain]
      omega
    · obtain rfl := Option.some.inj hstep
      refine ⟨{ h with all := fun _ => hall, joined := hjoined }, ?_⟩
      simp only [World.potential, mainAhead, hmain]
      omega
    · obtain rfl := Option.some.inj hstep
      refine ⟨{ h with all := fun _ => hall, joined := hjoined }, ?_⟩
      simp only [World.potential, mainAhead, hmain]
      omega
  · simp at hstep

end World

/-- Time passes. -/
def Action.isAdvance : Action → Bool
  | .advance _ => true
  | _ => false

namespace World
variable {w w' : World}

theorem Inv.step (h : Inv o w) {a : Action} (hstep : w.step o a = some w') :
    Inv o w' ∧ w'.potential o + (if !a.isAdvance then 1 else 0) ≤ w.potential o := by
  cases a with
  | advance d =>
    obtain rfl := Option.some.inj hstep
    exact ⟨{ h with each := fun c hc => (h.each c hc).mono (Nat.le_add_right ..) }, Nat.le_refl _⟩
  | main => exact h.pollMain hstep
  | connection i =>
    obtain ⟨c, hi, hc⟩ := Option.bind_eq_some_iff.1 hstep
    obtain ⟨r, hr, rfl⟩ := Option.map_eq_some_iff.1 hc
    obtain ⟨hinv, hmoves⟩ := (h.each c (List.mem_of_getElem? hi)).poll hr
    exact h.set hi hinv hmoves
  | connected i ok =>
    obtain ⟨c, hi, hc⟩ := Option.bind_eq_some_iff.1 hstep
    obtain ⟨r, hr, rfl⟩ := Option.map_eq_some_iff.1 hc
    obtain ⟨hinv, hmoves⟩ := (h.each c (List.mem_of_getElem? hi)).connected hr
    exact h.set hi hinv hmoves
  | answered i k ok =>
    obtain ⟨c, hi, hc⟩ := Option.bind_eq_some_iff.1 hstep
    obtain ⟨c', hc', rfl⟩ := Option.map_eq_some_iff.1 hc
    obtain ⟨hinv, hmoves⟩ := (h.each c (List.mem_of_getElem? hi)).receive hc'
    exact h.set hi hinv hmoves
  | handled ok => exact h.handled hstep

theorem start_eq_ok (hstart : start o now = .ok w) : w =
      { now
        shared := { requestsLeft := o.requests, connectionPermits := o.concurrentConnections }
        connections := []
        main := .spawning now } ∧
    (o.requestInterval ≠ 0 → o.concurrentStreamsPerConnection = 1) := by
  unfold start at hstart
  split at hstart
  · simp at hstart
  · rename_i hvalid
    split_ifs at hstart
    refine ⟨(Except.ok.inj hstart).symm, fun hinterval => ?_⟩
    by_contra hne
    have hset : o.requestIntervalMs.getD 0 ≠ 0 := fun hzero => hinterval (by
      rw [Options.requestInterval, hzero, Duration.fromMillis, Nat.zero_mul])
    simp [validateOpts, hset, hne] at hvalid

theorem inv_start (hstart : start o now = .ok w) :
    Inv o w ∧ w.potential o = 6 * o.requests + 7 * o.concurrentConnections + 3 := by
  obtain ⟨rfl, -⟩ := start_eq_ok hstart
  refine ⟨⟨by simp, Nat.le_refl _, fun _ => rfl, by simp, rfl, Nat.zero_le _, fun h => absurd rfl (h now), by simp [World.joined]⟩, ?_⟩
  simp only [World.potential, mainAhead, List.map_nil, List.sum_nil, List.length_nil]
  omega

theorem inv_of_run {w₀ : World} (hstart : start o now = .ok w₀) {as : List Action} (hrun : (machine o).run w₀ as = some w) :
    Inv o w :=
  Machine.run_invariant (M := machine o) (I := Inv o) (fun _ _ _ h hstep => (h.step hstep).1) (inv_start hstart).1 hrun

/-! ### Waiting -/

/-- Some task can go on right away. -/
def Runnable (o : Options) (w : World) : Prop := (w.step o .main).isSome ∨ ∃ i, (w.step o (.connection i)).isSome

/-- Some task sleeps until an instant to come. -/
def Sleeps (w : World) : Prop :=
  (∃ deadline, w.main = .spawning deadline ∧ w.now < deadline) ∨
    ∃ c ∈ w.connections, ∃ deadline, c.phase = .sleeping deadline ∧ w.now < deadline

/-- The endpoint connects, or a request has not been answered. -/
def AwaitsNetwork (w : World) : Prop := ∃ c ∈ w.connections, c.phase = .connecting ∨ 0 < c.unanswered

/-- A connection that is not done can go on, or sleeps, or waits for the network; permits are not waited for in vain. -/
theorem Inv.progress_connection (h : Inv o w) (hstreams : 0 < o.concurrentStreamsPerConnection) {i : Nat} {c : Connection}
    (hi : w.connections[i]? = some c) (hdone : ∀ ok, c.phase ≠ .done ok) : w.Runnable o ∨ w.Sleeps ∨ w.AwaitsNetwork := by
  have hmem := List.mem_of_getElem? hi
  have hinv := h.each c hmem
  have hrunnable : (c.poll o w.now w.shared).isSome → w.Runnable o := fun hsome => by
    refine .inr ⟨i, ?_⟩
    rw [World.step, hi, Option.bind_some, Option.isSome_map]
    exact hsome
  cases hphase : c.phase with
  | starting =>
    -- the other connections do not hold all the permits
    have hholding : (w.connections.map Connection.holding).sum < w.connections.length := by
      have hlt := List.sum_lt_sum Connection.holding (fun _ => 1) (fun c _ => c.holding_le)
        ⟨c, hmem, by simp [Connection.holding, hphase]⟩
      simpa using hlt
    have hpermits := h.permits
    have hspawned := h.spawned
    have hfree : ¬ w.shared.connectionPermits = 0 := by omega
    exact .inl (hrunnable (by simp [Connection.poll, hphase, hfree]))
  | connecting => exact .inr (.inr ⟨c, hmem, .inl hphase⟩)
  | acquiring =>
    by_cases hpermits : c.permits = 0
    · have hall := hinv.permits_of_held (by rw [Connection.held, hphase])
      exact .inr (.inr ⟨c, hmem, .inr (by omega)⟩)
    · refine .inl (hrunnable ?_)
      simp only [Connection.poll, hphase, if_neg hpermits]
      split_ifs <;> rfl
  | sleeping deadline =>
    by_cases hdue : w.now < deadline
    · exact .inr (.inl (.inr ⟨c, hmem, deadline, hphase, hdue⟩))
    · exact .inl (hrunnable (by simp [Connection.poll, hphase, hdue]))
  | joining k =>
    cases hk : c.requests[k]? with
    | none => exact .inl (hrunnable (by simp [Connection.poll, hphase, hk]))
    | some r =>
      obtain ⟨made, result⟩ := r
      cases result with
      | none =>
        have hpos : 0 < c.unanswered := List.countP_pos_iff.2 ⟨_, List.mem_of_getElem? hk, rfl⟩
        exact .inr (.inr ⟨c, hmem, .inr hpos⟩)
      | some result =>
        obtain ⟨t, ok⟩ := result
        refine .inl (hrunnable ?_)
        cases ok <;> simp [Connection.poll, hphase, hk]
  | done ok => exact absurd hphase (hdone ok)

/-- Nothing waits for anything else than time, the network and, in the end, the server. -/
theorem Inv.progress (h : Inv o w) (hstreams : 0 < o.concurrentStreamsPerConnection) :
    w.Runnable o ∨ w.Sleeps ∨ w.AwaitsNetwork ∨ (∃ n, w.main = .closing n) ∨ ∃ ok, w.main = .done ok := by
  have hrunnable : (w.pollMain o).isSome → w.Runnable o := .inl
  cases hmain : w.main with
  | spawning deadline =>
    by_cases hdue : w.now < deadline
    · exact .inr (.inl (.inl ⟨deadline, hmain, hdue⟩))
    · refine .inl (hrunnable ?_)
      simp only [World.pollMain, hmain, if_neg hdue]
      split_ifs <;> rfl
  | joining k =>
    cases hk : w.connections[k]? with
    | none => exact .inl (hrunnable (by simp [World.pollMain, hmain, hk]))
    | some c =>
      by_cases hdone : ∃ ok, c.phase = .done ok
      · obtain ⟨ok, hphase⟩ := hdone
        refine .inl (hrunnable ?_)
        cases ok <;> simp [World.pollMain, hmain, hk, hphase]
      · exact (h.progress_connection hstreams hk fun ok hphase => hdone ⟨ok, hphase⟩).imp_right (·.imp_right .inl)
  | closing n => exact .inr (.inr (.inr (.inl ⟨n, rfl⟩)))
  | done ok => exact .inr (.inr (.inr (.inr ⟨ok, rfl⟩)))

theorem pollMain_connections (hstep : w.pollMain o = some w') :
    w'.connections = w.connections ∨ w'.connections = w.connections ++ [.new o] := by
  unfold pollMain at hstep
  split at hstep
  · split_ifs at hstep
    · obtain rfl := Option.some.inj hstep
      exact .inr rfl
    · obtain rfl := Option.some.inj hstep
      exact .inl rfl
  · split at hstep
    · obtain rfl := Option.some.inj hstep
      exact .inl rfl
    · split at hstep
      · obtain rfl := Option.some.inj hstep
        exact .inl rfl
      · obtain rfl := Option.some.inj hstep
        exact .inl rfl
      · simp at hstep
  · simp at hstep
  · simp at hstep

theorem handled_connections {ok : Bool} (hstep : w.handled ok = some w') : w'.connections = w.connections := by
  unfold handled at hstep
  split at hstep
  · split_ifs at hstep
    · obtain rfl := Option.some.inj hstep
      rfl
    · obtain rfl := Option.some.inj hstep
      rfl
    · obtain rfl := Option.some.inj hstep
      rfl
  · simp at hstep

/-- Without streams there are no permits, and none comes back: the connection that awaits one stays where it is. -/
theorem Inv.stuck_step (h : Inv o w) (hstreams : o.concurrentStreamsPerConnection = 0) {i : Nat} {c : Connection}
    (hi : w.connections[i]? = some c) (hphase : c.phase = .acquiring) {a : Action} (hstep : w.step o a = some w') :
    w'.connections[i]? = some c := by
  have hall := (h.each c (List.mem_of_getElem? hi)).permits
  rw [hstreams] at hall
  obtain ⟨hpermits, hunanswered⟩ : c.permits = 0 ∧ c.unanswered = 0 := by omega
  have hset : ∀ {k : Nat} {r : Connection × Shared}, k ≠ i → (w.setConnection k r).connections[i]? = some c := fun hne => by
    rw [setConnection, List.getElem?_set_ne hne]
    exact hi
  have hown : ∀ {k : Nat} {c' : Connection}, w.connections[k]? = some c' → k = i → c' = c := fun hk heq =>
    Option.some.inj (hk.symm.trans (heq ▸ hi))
  cases a with
  | advance d =>
    obtain rfl := Option.some.inj hstep
    exact hi
  | main =>
    rcases pollMain_connections hstep with heq | heq
    · rw [heq]
      exact hi
    · rw [heq]
      rw [List.getElem?_append_left (List.getElem?_eq_some_iff.1 hi).1]
      exact hi
  | connection k =>
    obtain ⟨c', hk, hc⟩ := Option.bind_eq_some_iff.1 hstep
    obtain ⟨r, hr, rfl⟩ := Option.map_eq_some_iff.1 hc
    refine hset fun heq => ?_
    obtain rfl := hown hk heq
    simp [Connection.poll, hphase, hpermits] at hr
  | connected k ok =>
    obtain ⟨c', hk, hc⟩ := Option.bind_eq_some_iff.1 hstep
    obtain ⟨r, hr, rfl⟩ := Option.map_eq_some_iff.1 hc
    refine hset fun heq => ?_
    obtain rfl := hown hk heq
    simp [Connection.connected, hphase] at hr
  | answered k j ok =>
    obtain ⟨c', hk, hc⟩ := Option.bind_eq_some_iff.1 hstep
    obtain ⟨c'', hr, rfl⟩ := Option.map_eq_some_iff.1 hc
    refine hset fun heq => ?_
    obtain rfl := hown hk heq
    rw [Connection.answered] at hr
    split at hr
    · rename_i made hj
      have hpos : 0 < c'.unanswered := List.countP_pos_iff.2 ⟨_, List.mem_of_getElem? hj, rfl⟩
      omega
    · simp at hr
  | handled ok =>
    rw [handled_connections hstep]
    exact hi

/-- The connection stays as it is, whatever happens from now on. -/
def Stuck (o : Options) (w : World) (i : Nat) : Prop :=
  ∀ as w', (machine o).run w as = some w' → w'.connections[i]? = w.connections[i]?

theorem Inv.stuck (h : Inv o w) (hstreams : o.concurrentStreamsPerConnection = 0) {i : Nat} {c : Connection}
    (hi : w.connections[i]? = some c) (hphase : c.phase = .acquiring) : w.Stuck o i := by
  intro as w' hrun
  have hstays : Inv o w' ∧ w'.connections[i]? = some c := Machine.run_invariant (M := machine o)
    (I := fun w => Inv o w ∧ w.connections[i]? = some c)
    (fun _ _ _ hw hstep => ⟨(hw.1.step hstep).1, hw.1.stuck_step hstreams hw.2 hphase hstep⟩) ⟨h, hi⟩ hrun
  rw [hstays.2, hi]

/-! ### Results -/

/-- The requests that the connections have made. -/
def made (w : World) : Nat := (w.connections.map fun c => c.requests.length).sum

/-- The main task has joined all connections. -/
def AllClosed (w : World) : Prop := (∃ n, w.main = .closing n) ∨ w.main = .done true

theorem made_le_taken (w : World) : w.made ≤ w.taken :=
  List.sum_le_sum fun c _ => by
    unfold Connection.taken
    split <;> simp

theorem Inv.done_of_allClosed (h : Inv o w) (hclosed : w.AllClosed) : ∀ c ∈ w.connections, c.phase = .done true := by
  have hjoined : w.joined = w.connections.length := by
    obtain ⟨n, hmain⟩ | hmain := hclosed <;> simp [World.joined, hmain]
  intro c hc
  obtain ⟨j, hj, rfl⟩ := List.getElem_of_mem hc
  obtain ⟨c, hc, hphase⟩ := h.joined j (hjoined ▸ hj)
  rw [List.getElem?_eq_getElem hj] at hc
  rw [Option.some.inj hc, hphase]

end World

variable {w w₀ : World} {as : List Action}

/-- However the connections share the requests, they never make more of them than are configured; and once all connections are
closed, all requests have been made, and every one has been answered. -/
theorem requests_of_run (hstart : start o now = .ok w₀) (hrun : (machine o).run w₀ as = some w) :
    w.made ≤ o.requests ∧ (w.AllClosed → (0 < o.concurrentConnections → w.made = o.requests) ∧
      ∀ c ∈ w.connections, ∀ r ∈ c.requests, ∃ t, r.result = some (t, true)) := by
  have h := World.inv_of_run hstart hrun
  refine ⟨(w.made_le_taken.trans (Nat.le_add_left ..)).trans h.taken_le, fun hclosed => ⟨fun hsome => ?_, fun c hc r hr => ?_⟩⟩
  · have hdone := h.done_of_allClosed hclosed
    have hlen : w.connections.length = o.concurrentConnections :=
      h.all fun deadline hmain => by obtain ⟨n, hmain'⟩ | hmain' := hclosed <;> simp [hmain] at hmain'
    obtain ⟨c, hc⟩ := List.exists_mem_of_length_pos (hlen ▸ hsome)
    have hleft := h.exhausted c hc (.inr (hdone c hc))
    have htaken := h.taken_eq fun c hc => by simp [hdone c hc]
    have hmade : w.taken = w.made := congrArg List.sum (List.map_congr_left fun c hc => by simp [Connection.taken, hdone c hc])
    omega
  · have hphase := h.done_of_allClosed hclosed c hc
    obtain ⟨j, hj, rfl⟩ := List.getElem_of_mem hr
    obtain ⟨r, t, hr, hresult⟩ := (h.each c hc).joined j (by rwa [Connection.joined, hphase])
    rw [List.getElem?_eq_getElem hj] at hr
    exact ⟨t, Option.some.inj hr ▸ hresult⟩

/-- No connection has more requests open than it has streams; and where an interval is configured, it makes a request no sooner
than the interval after the one before was over, be it answered or failed. -/
theorem paced_of_run (hstart : start o now = .ok w₀) (hrun : (machine o).run w₀ as = some w) :
    w.connections.length ≤ o.concurrentConnections ∧
    ∀ c ∈ w.connections, c.unanswered ≤ o.concurrentStreamsPerConnection ∧
      (o.requestInterval ≠ 0 → ∀ j r r', c.requests[j]? = some r → c.requests[j + 1]? = some r' →
        ∃ t ok, r.result = some (t, ok) ∧ t + o.requestInterval ≤ r'.made) := by
  have h := World.inv_of_run hstart hrun
  refine ⟨h.spawned, fun c hc => ⟨?_, fun hinterval => ?_⟩⟩
  · have := (h.each c hc).permits
    omega
  · exact (h.each c hc).paced ((World.start_eq_ok hstart).2 hinterval)

/-- The tasks take a bounded number of steps, whatever happens in between; and until the main task has joined the connections,
some task can go on, or sleeps, or waits for the network, if connections have streams. Without them, a connection that has
taken a request waits for a permit for ever. -/
theorem finishes_of_run (hstart : start o now = .ok w₀) (hrun : (machine o).run w₀ as = some w) :
    as.countP (fun a => !a.isAdvance) ≤ 6 * o.requests + 7 * o.concurrentConnections + 3 ∧
    (0 < o.concurrentStreamsPerConnection →
      w.Runnable o ∨ w.Sleeps ∨ w.AwaitsNetwork ∨ (∃ n, w.main = .closing n) ∨ ∃ ok, w.main = .done ok) ∧
    (o.concurrentStreamsPerConnection = 0 → ∀ i c, w.connections[i]? = some c → c.phase = .acquiring → w.Stuck o i) := by
  obtain ⟨hinv, hpotential⟩ := World.inv_start hstart
  have hcount := Machine.countP_add_le (M := machine o) (I := World.Inv o) (fun _ _ _ h hstep => h.step hstep) hinv hrun
  rw [hpotential] at hcount
  have h := World.inv_of_run hstart hrun
  exact ⟨(Nat.le_add_right ..).trans hcount, h.progress, fun hstreams i c hi hphase => h.stuck hstreams hi hphase⟩

/-! ### Two requests -/

/-- Two requests on a connection with one stream, 5 ms apart. -/
def twoRequests : Options :=
  { requests := 2, concurrentConnections := 1, concurrentStreamsPerConnection := 1, requestIntervalMs := some 5 }

/-- The same two requests, on a connection without streams. -/
def withoutStreams : Options := { twoRequests with concurrentStreamsPerConnection := 0, requestIntervalMs := none }

/-- The first request is answered, and the connection sleeps. -/
def firstRequest : List Action :=
  [.main, .connection 0, .connected 0 true, .connection 0, .answered 0 0 true, .connection 0]

/-- The second one is answered, too, and the connection is closed. -/
def secondRequest : List Action :=
  [.advance (Duration.fromMillis 5), .connection 0, .answered 0 1 true, .connection 0, .connection 0, .connection 0, .main, .main,
    .main]

/-- A run of the simulation of the requests. -/
def simulateRequests (o : Options) (as : List Action) (P : World → Bool) : Bool :=
  match start o 0 with
  | .error _ => false
  | .ok w => ((machine o).run w as).any P

theorem exists_of_simulateRequests (o : Options) (as : List Action) {P : World → Bool} (h : simulateRequests o as P) :
    ∃ w₀ w, start o 0 = .ok w₀ ∧ (machine o).run w₀ as = some w ∧ P w = true := by
  unfold simulateRequests at h
  split at h
  · simp at h
  · rename_i w₀ hstart
    obtain ⟨w, hrun, hw⟩ := (Option.any_eq_true ..).1 h
    exact ⟨w₀, w, hstart, hrun, hw⟩

theorem requests_twoRequests : ∃ w₀ w, (machine twoRequests).run w₀ (firstRequest ++ secondRequest) = some w ∧
    w.main = .closing 0 ∧ w.made ≤ twoRequests.requests ∧
    (w.AllClosed → (0 < twoRequests.concurrentConnections → w.made = twoRequests.requests) ∧
      ∀ c ∈ w.connections, ∀ r ∈ c.requests, ∃ t, r.result = some (t, true)) := by
  obtain ⟨w₀, w, hstart, hrun, hw⟩ := exists_of_simulateRequests twoRequests (firstRequest ++ secondRequest)
    (P := fun w => decide (w.main = .closing 0)) (by decide)
  exact ⟨w₀, w, hrun, of_decide_eq_true hw, requests_of_run hstart hrun⟩

theorem paced_twoRequests : ∃ w₀ w, (machine twoRequests).run w₀ (firstRequest ++ secondRequest) = some w ∧
    w.connections.map (·.requests.map (·.made)) = [[0, Duration.fromMillis 5]] ∧
    w.connections.length ≤ twoRequests.concurrentConnections ∧
    ∀ c ∈ w.connections, c.unanswered ≤ twoRequests.concurrentStreamsPerConnection ∧
      (twoRequests.requestInterval ≠ 0 → ∀ j r r', c.requests[j]? = some r → c.requests[j + 1]? = some r' →
        ∃ t ok, r.result = some (t, ok) ∧ t + twoRequests.requestInterval ≤ r'.made) := by
  obtain ⟨w₀, w, hstart, hrun, hw⟩ := exists_of_simulateRequests twoRequests (firstRequest ++ secondRequest)
    (P := fun w => decide (w.connections.map (·.requests.map (·.made)) = [[0, Duration.fromMillis 5]])) (by decide)
  exact ⟨w₀, w, hrun, of_decide_eq_true hw, paced_of_run hstart hrun⟩

theorem finishes_twoRequests :
    (∃ w₀ w, (machine twoRequests).run w₀ firstRequest = some w ∧ w.main = .spawning 1000000 ∧
      firstRequest.countP (fun a => !a.isAdvance) ≤ 6 * twoRequests.requests + 7 * twoRequests.concurrentConnections + 3 ∧
      (w.Runnable twoRequests ∨ w.Sleeps ∨ w.AwaitsNetwork ∨ (∃ n, w.main = .closing n) ∨ ∃ ok, w.main = .done ok)) ∧
    ∃ w₀ w, start withoutStreams 0 = .ok w₀ ∧
      (machine withoutStreams).run w₀ [.main, .connection 0, .connected 0 true] = some w ∧ w.Stuck withoutStreams 0 := by
  constructor
  · obtain ⟨w₀, w, hstart, hrun, hw⟩ := exists_of_simulateRequests twoRequests firstRequest
      (P := fun w => decide (w.main = .spawning 1000000)) (by decide)
    obtain ⟨hsteps, hprogress, -⟩ := finishes_of_run hstart hrun
    exact ⟨w₀, w, hrun, of_decide_eq_true hw, hsteps, hprogress (by decide)⟩
  · obtain ⟨w₀, w, hstart, hrun, hw⟩ := exists_of_simulateRequests withoutStreams [.main, .connection 0, .connected 0 true]
      (P := fun w => w.connections[0]?.any fun c : Connection => decide (c.phase = .acquiring)) (by decide)
    obtain ⟨c, hc, hphase⟩ := (Option.any_eq_true ..).1 hw
    exact ⟨w₀, w, hstart, hrun, (finishes_of_run hstart hrun).2.2 rfl 0 c hc (of_decide_eq_true hphase)⟩

end Requests
end QuicWorkbench
