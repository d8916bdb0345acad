import QuicWorkbench.Proofs.Readiness
import QuicWorkbench.Proofs.Simulate

/-!
# The sanity checks of `send`

`NetworkLink::send` asserts that the pacer can send and that the link is up. Both hold as long as no
event takes a link down while the link's task yields to the preferred links.
-/

namespace QuicWorkbench

/-- The link that the next event takes down. -/
def State.nextLinkDown (net : InMemoryNetwork) (s : State) : Option LinkIx :=
  match s.events with
  | [] => none
  | event :: _ =>
    match event.kind with
    | .link payload => if payload.status = some .down then net.linksById.lookup payload.linkId else none
    | .node _ => none

/-- No event takes a link down while the link's task yields to the preferred links. -/
def NoLinkDownDuringYield (net : InMemoryNetwork) (s : State) : Action → Prop
  | .networkEvent => ∀ j ∈ s.nextLinkDown net, s.yieldingPacket j = none
  | _ => True

instance (net : InMemoryNetwork) (s : State) (a : Action) : Decidable (NoLinkDownDuringYield net s a) := by
  unfold NoLinkDownDuringYield
  split <;> infer_instance

/-- The link of a task that yields is up. -/
def LinkUp (link : LinkStatus) (_ : NodeStatus) : Prop := link = .up

theorem YieldInv.linkUp_step {net : InMemoryNetwork} {s s' : State} {a : Action} (h : YieldInv LinkUp s)
    (hC : NoLinkDownDuringYield net s a) (hs : net.step s a = some s') : YieldInv LinkUp s' := by
  cases InMemoryNetwork.step_cases hs with
  | event event events hevents hdue =>
    unfold State.processEvent
    cases hkind : event.kind with
    | link payload =>
      refine (h.events events).linkEvent payload fun j p hp hup => ?_
      refine State.linkStatus_processLinkEvent hup fun ⟨hdown, hlookup⟩ => ?_
      have hnext : s.nextLinkDown net = some j := by simp [State.nextLinkDown, hevents, hkind, hdown, hlookup]
      have hnone := hC j hnext
      have hp : s.yieldingPacket j = some p := hp
      simp [hnone] at hp
    | node payload => exact (h.events events).nodeEvent payload fun j p _ hup => hup
  | link j slot _ hj he => exact h.linkEffect he fun p _ hup _ => hup
  | effects _ _ he =>
    exact Relation.ReflTransGen.preserves (I := fun σ => YieldInv LinkUp σ.state)
      (fun σ σ' he hσ => hσ.frame he.linkFrame) he h

/-- Where the task calls `send`, the sanity checks hold if the link is up wherever tasks yield. -/
theorem YieldInv.sanityChecks {s s₁ : State} {j : LinkIx} {p : OutgoingPacket} (h : YieldInv LinkUp s)
    (hcall : s.sendCall j = some (s₁, p)) : s₁.sanityChecks j := by
  obtain ⟨q, s₀, hpick, hpending, rfl⟩ := State.sendCall_picks hcall
  obtain ⟨hup, hcan⟩ : (s₀.links j).status = .up ∧ (s₀.links j).pacer.canSend s₀.now := by
    rcases hpick.checked h.paced with hyield | hchecked
    · obtain ⟨rfl, -⟩ := hpick.of_yielding hyield
      have hcan := h.paced j
      rw [hyield] at hcan
      exact ⟨h.yielding j q (State.yieldingPacket_eq_some.2 ⟨hyield, hpending⟩), hcan⟩
    · obtain ⟨queue, hs₀⟩ := hpick.eq_dequeue
      have hun : s₀.handled q.stay = false := by
        simp only [State.pending, Bool.and_eq_true, Bool.not_eq_eq_eq_not, Bool.not_true] at hpending
        rw [hs₀]
        exact hpending.1
      obtain ⟨hup, hcan, -⟩ := hchecked.past (.inl ⟨_, rfl⟩) hun
      exact ⟨hup, hcan⟩
  show ((s₀.links j).pacer.canSend s₀.now && !(s₀.links j).status.isDown) = true
  rw [hcan, hup]
  rfl

/-- The second link goes down while its task yields to the first one: the task calls `send` all the same,
and the sanity check fails. -/
theorem send_on_link_that_went_down : ∃ net s, Reaches false (hostPair 8000000 0)
    [HostPair.linkEvent 1 "a2b" .down] net s ∧ ∃ s₁ p, s.sendCall 1 = some (s₁, p) ∧ s₁.sanityChecks 1 = false := by
  obtain ⟨net, s, hreach, hs⟩ := exists_reaches_of_simulate (hostPair 8000000 0) [HostPair.linkEvent 1 "a2b" .down]
    (HostPair.sendFromA 1 ++ [.linkTask 1 0, .advance 1, .networkEvent])
    (fun _ s => (s.sendCall 1).any fun (s₁, _) => !s₁.sanityChecks 1) (by decide +kernel)
  obtain ⟨⟨s₁, p⟩, hcall, hfail⟩ := (Option.any_eq_true _ _).1 hs
  exact ⟨net, s, hreach, s₁, p, hcall, by simpa using hfail⟩

/-- In every run in which no event takes a link down while the link's task yields, the sanity checks hold
whenever `process_link_queue` calls `NetworkLink::send`. -/
theorem sanityChecks_of_sendCall {spec : NetworkSpec} {events : List NetworkEvent} {net : InMemoryNetwork}
    {s₀ s s₁ : State} {simulationStart start now : Nat} {disableTimeWarping : Bool} {actions : List Action}
    {j : LinkIx} {p : OutgoingPacket}
    (hinit : InMemoryNetwork.initializeNetwork spec (.new events spec.nodes spec.links) simulationStart start now
      disableTimeWarping = .ok (net, s₀))
    (hC : net.machine.Guarded (NoLinkDownDuringYield net) s₀ actions) (hrun : net.machine.run s₀ actions = some s)
    (hcall : s.sendCall j = some (s₁, p)) : s₁.sanityChecks j :=
  have h : YieldInv LinkUp s := Machine.run_invariant_of_guarded (M := net.machine)
    (fun _ _ _ hs hC hstep => hs.linkUp_step hC hstep) hC (YieldInv.initialized hinit) hrun
  h.sanityChecks hcall

/-- The second link's task yields to the first one, which does not send: then the second one calls
`send`. -/
theorem sanityChecks_hostPair : ∃ net s₀ s s₁ p, InMemoryNetwork.initializeNetwork (hostPair 8000000 0)
      (.new [] (hostPair 8000000 0).nodes (hostPair 8000000 0).links) 0 0 0 false = .ok (net, s₀) ∧
    net.machine.run s₀ (HostPair.sendFromA 1 ++ [.linkTask 1 0]) = some s ∧ s.sendCall 1 = some (s₁, p) ∧
    s₁.sanityChecks 1 := by
  obtain ⟨net, s₀, s, hinit, hC, hrun, hs⟩ := exists_of_simulateGuarded (hostPair 8000000 0) []
    (HostPair.sendFromA 1 ++ [.linkTask 1 0]) NoLinkDownDuringYield (fun _ s => (s.sendCall 1).isSome)
    (by decide +kernel)
  obtain ⟨⟨s₁, p⟩, hcall⟩ := Option.isSome_iff_exists.1 hs
  exact ⟨net, s₀, s, s₁, p, hinit, hrun, hcall, sanityChecks_of_sendCall hinit hC hrun hcall⟩

end QuicWorkbench
