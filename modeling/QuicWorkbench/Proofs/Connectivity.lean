import QuicWorkbench.Network.Connectivity
import QuicWorkbench.Proofs.Hops
import QuicWorkbench.Proofs.Hosts

/-!
# What the connectivity check says

The durations that the check reports are no shorter than the delays of links that lead from one host to the other; its last
`unwrap`s never fail; and where it reports an error, it has waited for as long as it says, and has missed no packet.
-/

namespace QuicWorkbench

theorem Traced.take {net : InMemoryNetwork} {spec : NetworkSpec} {sends : List Sending} {s : State} {i : NodeIx}
    {inbound : InboundQueue} {batch : List PrioritizedInTransitData} (h : Traced net sends s) (htables : net.Tables spec)
    (hperm : (s.nodes i).inbound.queue.Perm (batch ++ inbound.queue)) :
    Traced net sends (s.setNode i { s.nodes i with inbound }) := by
  -- a socket takes the packets, they are forgotten, and then the socket is
  have htake := @Effect.takeInbound net [] s i inbound (.new 1) batch hperm
  have habandon := fun s' => @Effect.abandon net (batch.map (·.atHost i) ++ []) [] s' (List.nil_sublist _)
  have hsame : ∀ sockets, NothingNew { s.setNode i { s.nodes i with inbound } with sockets }
      (s.setNode i { s.nodes i with inbound }) := fun sockets =>
    .of_history (.inl rfl) (fun _ => rfl) (fun _ => rfl) (fun _ _ h => h) fun _ _ h => .copy h
  refine ⟨⟨h.provenance.1, ?_⟩, ?_, ?_⟩
  · have hN := SentAs.custody net sends
    have htaken := InCustody.effect hN h.provenance.2 htake fun i' d hmem => by
      simp [PrioritizedInTransitData.atHost] at hmem
    have habandoned := InCustody.effect hN htaken (habandon _) (by simp)
    exact InCustody.frame hN habandoned (hsame _) rfl (by simp) fun step hstep => .inl hstep
  · have habandoned := (LifeInv.effect (LifeInv.effect h.life htables htake) htables (habandon _))
    refine ⟨{ habandoned.stays with }, fun hgen => ?_⟩
    exact LifeInv.quiet (habandoned.lives hgen) (hsame _) rfl rfl (List.Sublist.refl _) (.inl rfl)
  · refine h.announced.of_subset rfl (List.Subset.refl _) fun i' e he => ?_
    by_cases hi : i' = i
    · subst hi
      refine hperm.mem_iff.2 (List.mem_append_right _ ?_)
      simpa [State.setNode] using he
    · simpa [State.setNode, hi] using he

theorem InMemoryNetwork.generated_of_step {net : InMemoryNetwork} {s s' : State} {a : Action} (h : net.step s a = some s') :
    s.generated <+: s'.generated := by
  have hI : Preserved net fun σ => s.generated <+: σ.state.generated :=
    { effect := fun _ _ he hs => hs.trans he.generated
      link := fun _ _ _ _ he hs => he.generated ▸ hs
      linkEvent := fun s event hs => (s.processLinkEvent_frame net event).generated ▸ hs
      nodeEvent := fun s event hs => (s.processNodeEvent_frame net event).generated ▸ hs
      events := fun _ _ hs => hs }
  exact hI.step h (List.prefix_refl _)

namespace Connectivity

/-- The sends are those of the check, which started at `t₀`. -/
def Probes (net : InMemoryNetwork) (a b : NodeIx) (t₀ : Nat) (sends : List Sending) : Prop :=
  ∀ x ∈ sends, t₀ ≤ x.time ∧
    (x.node = a ∧ probe net b = some x.transmit ∨ x.node = b ∧ probe net a = some x.transmit)

/-- The instant before which the check does not give up. -/
def patience (t₀ : Nat) : Nat := t₀ + attempts * pause + timeout

/-- What a `receive` of the check returned came to the host. -/
def Delivered (net : InMemoryNetwork) (sends : List Sending) (s : State) (i : NodeIx) (delivered : List DeliveredTransmit) :
    Prop :=
  ∃ e, CameTo net sends s i e ∧ delivered = [e.deliver]

/-- Links lead from the one host to the other, and take no longer than the reported duration. -/
def Connected (net : InMemoryNetwork) (t₀ : Nat) (i : NodeIx) (arrived : Nat) (i' : NodeIx) : Prop :=
  ∃ D, Travels net.Linked i D i' ∧ t₀ + D ≤ net.simulationStart + arrived

/-- What the check knows at each await point. -/
def Check.Fits (net : InMemoryNetwork) (a b : NodeIx) (t₀ : Nat) (sends : List Sending) (s : State) : Check → Prop
  | .sleeping attemptsLeft deadline => attemptsLeft ≤ attempts ∧ t₀ + (attempts - attemptsLeft) * pause ≤ deadline
  | .receivingAToB deadline delivery => t₀ + attempts * pause ≤ s.now ∧ patience t₀ ≤ deadline ∧ delivery = .new 1
  | .receivingBToA aToB deadline delivery => patience t₀ ≤ deadline ∧ delivery = .new 1 ∧
      (aToB = none → patience t₀ ≤ s.now) ∧ ∀ delivered, aToB = some delivered → Delivered net sends s b delivered
  | .done (.ok (arrived₁, arrived₂)) => s.generated.Nodup → Connected net t₀ a arrived₁ b ∧ Connected net t₀ b arrived₂ a
  | .done (.error e) => patience t₀ ≤ s.now ∧ (e.aToBFailed ∨ e.bToAFailed)
  | .panicked => True

structure CheckInv (net : InMemoryNetwork) (a b : NodeIx) (t₀ : Nat) (sends : List Sending) (w : World) : Prop where
  traced : Traced net sends w.state
  probes : Probes net a b t₀ sends
  start : t₀ ≤ w.state.now
  fits : w.check.Fits net a b t₀ sends w.state

variable {net : InMemoryNetwork} {spec : NetworkSpec} {a b : NodeIx} {t₀ : Nat} {sends : List Sending} {s s' : State}
  {w w' : World}

theorem Delivered.setNode {i : NodeIx} {delivered : List DeliveredTransmit} (h : Delivered net sends s i delivered)
    (i' : NodeIx) (n : NodeState) : Delivered net sends (s.setNode i' n) i delivered := by
  obtain ⟨e, he, rfl⟩ := h
  refine ⟨e, ?_, rfl⟩
  rw [← List.append_nil sends]
  exact he.mono (List.Subset.refl _) (Nat.le_refl _)

/-- The check is not over, and not asleep. -/
def Check.Ready (now : Nat) : Check → Prop
  | .sleeping _ deadline => deadline ≤ now
  | .receivingAToB .. | .receivingBToA .. => True
  | .done _ | .panicked => False

theorem Check.Fits.mono {check : Check} (h : check.Fits net a b t₀ sends s) (hlog : s.log ⊆ s'.log) (hnow : s.now ≤ s'.now)
    (hgen : s.generated <+: s'.generated) : check.Fits net a b t₀ sends s' := by
  match check, h with
  | .sleeping attemptsLeft deadline, h => exact h
  | .receivingAToB deadline delivery, h => exact ⟨h.1.trans hnow, h.2⟩
  | .receivingBToA aToB deadline delivery, ⟨hdeadline, hdelivery, hnone, haToB⟩ =>
    refine ⟨hdeadline, hdelivery, fun heq => (hnone heq).trans hnow, fun delivered hdelivered => ?_⟩
    obtain ⟨e, he, rfl⟩ := haToB delivered hdelivered
    refine ⟨e, ?_, rfl⟩
    rw [← List.append_nil sends]
    exact he.mono hlog hnow
  | .done (.ok (arrived₁, arrived₂)), h => exact fun hnodup => h (hnodup.sublist hgen.sublist)
  | .done (.error e), h => exact ⟨h.1.trans hnow, h.2⟩
  | .panicked, h => trivial

/-- An attempt is a send at `A`, and, if that does not panic, one at `B`. -/
theorem attempt_steps {uuids : Uuid × Uuid} {draws : Draws × Draws} {result : Except State State}
    (h : attempt net a b uuids draws s = some result) :
    ∃ toB, probe net b = some toB ∧ ((∃ s', result = .error s' ∧ net.step s (.trySend a toB uuids.1 draws.1) = some s') ∨
      ∃ toA s₁, probe net a = some toA ∧ net.step s (.trySend a toB uuids.1 draws.1) = some s₁ ∧
        net.step s₁ (.trySend b toA uuids.2 draws.2) = some (State.settled result)) := by
  simp only [attempt, Option.bind_eq_bind, Option.bind_eq_some_iff] at h
  obtain ⟨toB, htoB, first, hfirst, h⟩ := h
  have hstep := State.trySend_of_sendFrom hfirst
  refine ⟨toB, htoB, ?_⟩
  cases first with
  | error s' =>
    obtain rfl := Option.some.inj h
    exact .inl ⟨s', rfl, hstep⟩
  | ok s₁ =>
    obtain ⟨toA, htoA, hsecond⟩ := Option.bind_eq_some_iff.1 h
    exact .inr ⟨toA, s₁, htoA, hstep, State.trySend_of_sendFrom hsecond⟩

/-- A poll of a `receive` under a timeout, from `s` to `s'`: it returns a packet if there is one. -/
inductive TimeoutPoll (net : InMemoryNetwork) (sends : List Sending) (i : NodeIx) (deadline : Nat) (s s' : State) :
    Option (Option (List DeliveredTransmit)) → Prop
  | ready (delivered : List DeliveredTransmit) (h : Delivered net sends s' i delivered) :
      TimeoutPoll net sends i deadline s s' (some (some delivered))
  | elapsed (hempty : (s.nodes i).inbound.queue = []) (hdue : deadline ≤ s.now) :
      TimeoutPoll net sends i deadline s s' (some none)
  | pending (hempty : (s.nodes i).inbound.queue = []) : TimeoutPoll net sends i deadline s s' none

theorem pollTimeout_cases (h : Traced net sends s) (htables : net.Tables spec) (i : NodeIx) (deadline : Nat) :
    ∃ result inbound, pollTimeout i deadline (.new 1) s = (result, .new 1, s.setNode i { s.nodes i with inbound }) ∧
      Traced net sends (s.setNode i { s.nodes i with inbound }) ∧
      TimeoutPoll net sends i deadline s (s.setNode i { s.nodes i with inbound }) result := by
  have harrived : ∀ e ∈ (s.nodes i).inbound.queue, e.arrivalTime ≤ s.now := fun e he => by
    have hhere := h.announced i e he
    rw [PrioritizedInTransitData.arrivalTime, hhere.delay]
    exact hhere.sent
  obtain ⟨hdelivery, batch, hperm, hlen, hresult⟩ := NextPacketDelivery.poll_of_arrived (d := .new 1) rfl Nat.one_pos harrived i
  rw [pollTimeout]
  generalize (NextPacketDelivery.new 1).poll (s.nodes i).inbound s.now i = polled at hdelivery hperm hresult
  obtain ⟨result, delivery, inbound⟩ := polled
  obtain rfl : delivery = .new 1 := hdelivery
  rcases hresult with ⟨hne, hready⟩ | ⟨hnil, -, source, hpending⟩
  · obtain rfl : result = .ready (batch.map (·.deliver)) := hready
    obtain ⟨e, rfl⟩ : ∃ e, batch = [e] := List.length_eq_one_iff.1 (by
      have hpos := List.length_pos_iff.2 hne
      have hle : batch.length ≤ 1 := hlen
      omega)
    have he : e ∈ (s.nodes i).inbound.queue := hperm.mem_iff.2 (List.mem_append_left _ (List.mem_singleton_self e))
    refine ⟨_, inbound, rfl, h.take htables hperm, .ready _ ⟨e, ?_, rfl⟩⟩
    rw [← List.append_nil sends]
    exact (h.cameTo he).mono (List.Subset.refl _) (Nat.le_refl _)
  · obtain rfl : result = .pending source := hpending
    refine ⟨_, inbound, rfl, h.take htables hperm, ?_⟩
    split_ifs with hdue
    · exact .elapsed hnil hdue
    · exact .pending hnil

section
variable {endpointA endpointB : UdpEndpoint} (htables : net.Tables spec) (hids : (spec.nodes.map NetworkNodeSpec.id).Nodup)
  (ha : (net.node a).udpEndpoint = some endpointA) (hb : (net.node b).udpEndpoint = some endpointB)
  (hinj : endpointA.addr = endpointB.addr → a = b)
include htables hids ha hb hinj

theorem connected (h : Traced net sends s) (hprobes : Probes net a b t₀ sends) (hgen : s.generated.Nodup)
    (delivered : List DeliveredTransmit) :
    (Delivered net sends s b delivered → ∃ t, arrivedAt net s b delivered = some t ∧ Connected net t₀ a t b) ∧
      (Delivered net sends s a delivered → ∃ t, arrivedAt net s a delivered = some t ∧ Connected net t₀ b t a) := by
  have hgo : ∀ i endpoint, (net.node i).udpEndpoint = some endpoint → Delivered net sends s i delivered →
      ∃ t x D, arrivedAt net s i delivered = some t ∧ x ∈ sends ∧ x.transmit.destination = endpoint.addr ∧
        Travels net.Linked x.node D i ∧ x.time + D ≤ net.simulationStart + t := by
    rintro i endpoint hi ⟨e, he, rfl⟩
    obtain ⟨t, x, D, ht, hx, hdesc, htravels, hle⟩ := h.arrivedAt htables hids hgen he
    refine ⟨t, x, D, ht, List.mem_of_getElem? hx, ?_, htravels, hle⟩
    obtain ⟨ecn, htransmit⟩ := hdesc.transmit
    have hhere := he.here
    rw [hi, Option.any_some, decide_eq_true_eq, htransmit] at hhere
    exact hhere.symm
  have hdest : ∀ i endpoint transmit, (net.node i).udpEndpoint = some endpoint → probe net i = some transmit →
      transmit.destination = endpoint.addr := by
    intro i endpoint transmit hi hprobe
    rw [probe, hi] at hprobe
    obtain rfl := Option.some.inj hprobe
    rfl
  refine ⟨fun hdelivered => ?_, fun hdelivered => ?_⟩
  · obtain ⟨t, x, D, ht, hx, haddr, htravels, hle⟩ := hgo b endpointB hb hdelivered
    obtain ⟨hstart, ⟨rfl, -⟩ | ⟨rfl, hprobe⟩⟩ := hprobes x hx
    · exact ⟨t, ht, D, htravels, (Nat.add_le_add_right hstart D).trans hle⟩
    · -- `B` sends to `A` only
      obtain rfl := hinj ((hdest a endpointA _ ha hprobe).symm.trans haddr)
      exact ⟨t, ht, D, htravels, (Nat.add_le_add_right hstart D).trans hle⟩
  · obtain ⟨t, x, D, ht, hx, haddr, htravels, hle⟩ := hgo a endpointA ha hdelivered
    obtain ⟨hstart, ⟨rfl, hprobe⟩ | ⟨rfl, -⟩⟩ := hprobes x hx
    · obtain rfl := hinj (haddr.symm.trans (hdest b endpointB _ hb hprobe))
      exact ⟨t, ht, D, htravels, (Nat.add_le_add_right hstart D).trans hle⟩
    · exact ⟨t, ht, D, htravels, (Nat.add_le_add_right hstart D).trans hle⟩

theorem fits_of_conclude (h : Traced net sends s) (hprobes : Probes net a b t₀ sends)
    {aToB bToA : Option (List DeliveredTransmit)} {check : Check} (hfailed : aToB = none ∨ bToA = none → patience t₀ ≤ s.now)
    (haToB : ∀ delivered, aToB = some delivered → Delivered net sends s b delivered)
    (hbToA : ∀ delivered, bToA = some delivered → Delivered net sends s a delivered)
    (hcheck : conclude net a b s aToB bToA = some check) : check.Fits net a b t₀ sends s := by
  cases aToB with
  | none =>
    obtain rfl := Option.some.inj hcheck
    exact ⟨hfailed (.inl rfl), by simp⟩
  | some aToB =>
    cases bToA with
    | none =>
      obtain rfl := Option.some.inj hcheck
      exact ⟨hfailed (.inr rfl), by simp⟩
    | some bToA =>
      simp only [conclude, Option.bind_eq_bind, Option.bind_eq_some_iff] at hcheck
      obtain ⟨t₁, ht₁, t₂, ht₂, hcheck⟩ := hcheck
      obtain rfl := Option.some.inj hcheck
      intro hgen
      obtain ⟨t, ht, hconnected⟩ := (connected htables hids ha hb hinj h hprobes hgen aToB).1 (haToB aToB rfl)
      obtain ⟨t', ht', hconnected'⟩ := (connected htables hids ha hb hinj h hprobes hgen bToA).2 (hbToA bToA rfl)
      rw [ht₁] at ht
      rw [ht₂] at ht'
      obtain rfl := Option.some.inj ht
      obtain rfl := Option.some.inj ht'
      exact ⟨hconnected, hconnected'⟩

end

theorem send_fits {i : NodeIx} {transmit : OwnedTransmit} {uuid : Uuid} {draws : Draws} (htables : net.Tables spec)
    (h : Traced net sends s) (hprobes : Probes net a b t₀ sends) (hstart : t₀ ≤ s.now)
    (hi : i = a ∧ probe net b = some transmit ∨ i = b ∧ probe net a = some transmit)
    (hstep : net.step s (.trySend i transmit uuid draws) = some s') :
    Traced net (sends ++ [⟨s.now, i, transmit⟩]) s' ∧ Probes net a b t₀ (sends ++ [⟨s.now, i, transmit⟩]) ∧ s.now ≤ s'.now := by
  refine ⟨h.step htables hstep, fun x hx => ?_, (Announces.step hstep (by simp)).now⟩
  rcases List.mem_append.1 hx with hx | hx
  · exact hprobes x hx
  · obtain rfl := List.mem_singleton.1 hx
    exact ⟨hstart, hi⟩

theorem CheckInv.network {act : QuicWorkbench.Action} (h : CheckInv net a b t₀ sends w) (htables : net.Tables spec)
    (hinternal : act.isInternal) (hstep : net.step w.state act = some s') :
    CheckInv net a b t₀ sends { w with state := s' } := by
  have hsending : act.sending w.state = none := by
    cases act <;> first | rfl | simp [QuicWorkbench.Action.isInternal] at hinternal
  have hannounces := Announces.step hstep (by rintro i metaLen rfl; simp [QuicWorkbench.Action.isInternal] at hinternal)
  have htraced := h.traced.step htables hstep
  rw [hsending, Option.toList_none, List.append_nil] at htraced
  exact ⟨htraced, h.probes, h.start.trans hannounces.now,
    h.fits.mono hannounces.log hannounces.now (InMemoryNetwork.generated_of_step hstep)⟩

section
variable {endpointA endpointB : UdpEndpoint} (htables : net.Tables spec) (hids : (spec.nodes.map NetworkNodeSpec.id).Nodup)
  (ha : (net.node a).udpEndpoint = some endpointA) (hb : (net.node b).udpEndpoint = some endpointB)
  (hinj : endpointA.addr = endpointB.addr → a = b)
include htables hids ha hb hinj

theorem CheckInv.poll {uuids : Uuid × Uuid} {draws : Draws × Draws} (h : CheckInv net a b t₀ sends w)
    (hpoll : w.poll net a b uuids draws = some w') : ∃ sends', CheckInv net a b t₀ sends' w' := by
  obtain ⟨s, check⟩ := w
  have hstart : t₀ ≤ s.now := h.start
  have htraced : Traced net sends s := h.traced
  match check, h.fits, hpoll with
  | .sleeping 0 deadline, hfits, hpoll =>
    obtain ⟨-, hdeadline⟩ := hfits
    simp only [World.poll] at hpoll
    split_ifs at hpoll with hdue
    obtain rfl := Option.some.inj hpoll
    have hsent : t₀ + attempts * pause ≤ s.now := hdeadline.trans (Nat.not_lt.1 hdue)
    exact ⟨sends, htraced, h.probes, hstart, hsent, Nat.add_le_add_right hsent timeout, rfl⟩
  | .sleeping (attemptsLeft + 1) deadline, hfits, hpoll =>
    obtain ⟨hleft, hdeadline⟩ := hfits
    simp only [World.poll] at hpoll
    split_ifs at hpoll with hdue
    have hdue : deadline ≤ s.now := Nat.not_lt.1 hdue
    obtain ⟨result, hresult, rfl⟩ := Option.map_eq_some_iff.1 hpoll
    obtain ⟨toB, htoB, ⟨s', rfl, hstep⟩ | ⟨toA, s₁, htoA, hfirst, hsecond⟩⟩ := attempt_steps hresult
    · obtain ⟨htraced', hprobes', hnow⟩ := send_fits htables htraced h.probes hstart (.inl ⟨rfl, htoB⟩) hstep
      exact ⟨_, htraced', hprobes', hstart.trans hnow, trivial⟩
    · obtain ⟨htraced₁, hprobes₁, hnow₁⟩ := send_fits htables htraced h.probes hstart (.inl ⟨rfl, htoB⟩) hfirst
      obtain ⟨htraced', hprobes', hnow⟩ :=
        send_fits htables htraced₁ hprobes₁ (hstart.trans hnow₁) (.inr ⟨rfl, htoA⟩) hsecond
      have hlater := hnow₁.trans hnow
      cases result with
      | error s' => exact ⟨_, htraced', hprobes', hstart.trans hlater, trivial⟩
      | ok s' =>
        refine ⟨_, htraced', hprobes', hstart.trans hlater, Nat.le_of_succ_le hleft, ?_⟩
        have hattempts : attempts - attemptsLeft = attempts - (attemptsLeft + 1) + 1 := by omega
        rw [hattempts, Nat.succ_mul, ← Nat.add_assoc]
        exact Nat.add_le_add_right ((hdeadline.trans hdue).trans hlater) pause
  | .receivingAToB deadline delivery, hfits, hpoll =>
    obtain ⟨hsent, hdeadline, rfl⟩ := hfits
    obtain ⟨result, inbound, heq, htaken, hresult⟩ := pollTimeout_cases htraced htables b deadline
    simp only [World.poll, heq] at hpoll
    cases result with
    | none =>
      obtain rfl := Option.some.inj hpoll
      exact ⟨sends, htaken, h.probes, hstart, hsent, hdeadline, rfl⟩
    | some aToB =>
      obtain rfl := Option.some.inj hpoll
      refine ⟨sends, htaken, h.probes, hstart, Nat.add_le_add_right hsent timeout, rfl, fun hnone => ?_,
        fun delivered hdelivered => ?_⟩
      · subst hnone
        cases hresult with
        | elapsed _ hdue => exact hdeadline.trans hdue
      · subst hdelivered
        cases hresult with
        | ready _ h => exact h
  | .receivingBToA aToB deadline delivery, hfits, hpoll =>
    obtain ⟨hdeadline, rfl, hnone, haToB⟩ := hfits
    obtain ⟨result, inbound, heq, htaken, hresult⟩ := pollTimeout_cases htraced htables a deadline
    have hkept : ∀ delivered, aToB = some delivered →
        Delivered net sends (s.setNode a { s.nodes a with inbound }) b delivered := fun delivered hdelivered =>
      (haToB delivered hdelivered).setNode ..
    simp only [World.poll, heq] at hpoll
    cases result with
    | none =>
      obtain rfl := Option.some.inj hpoll
      exact ⟨sends, htaken, h.probes, hstart, hdeadline, rfl, hnone, hkept⟩
    | some bToA =>
      obtain ⟨check, hcheck, rfl⟩ := Option.map_eq_some_iff.1 hpoll
      refine ⟨sends, htaken, h.probes, hstart, ?_⟩
      refine fits_of_conclude htables hids ha hb hinj htaken h.probes (fun hor => ?_) hkept (fun delivered hdelivered => ?_) hcheck
      · rcases hor with rfl | rfl
        · exact hnone rfl
        · cases hresult with
          | elapsed _ hdue => exact hdeadline.trans hdue
      · subst hdelivered
        cases hresult with
        | ready _ h => exact h
  | .done _, _, hpoll => simp [World.poll] at hpoll
  | .panicked, _, hpoll => simp [World.poll] at hpoll

theorem CheckInv.step {α : Action} (h : CheckInv net a b t₀ sends w) (hstep : w.step net a b α = some w') :
    ∃ sends', CheckInv net a b t₀ sends' w' := by
  cases α with
  | network act =>
    rw [World.step] at hstep
    split_ifs at hstep with hinternal
    obtain ⟨s', hs', rfl⟩ := Option.map_eq_some_iff.1 hstep
    exact ⟨sends, h.network htables hinternal hs'⟩
  | check uuids draws => exact h.poll htables hids ha hb hinj hstep

end

/-! ### No packet is missed -/

theorem attempt_announces {uuids : Uuid × Uuid} {draws : Draws × Draws} {result : Except State State}
    (h : attempt net a b uuids draws s = some result) : Announces net s (State.settled result) := by
  obtain ⟨toB, -, ⟨s', rfl, hstep⟩ | ⟨toA, s₁, -, hfirst, hsecond⟩⟩ := attempt_steps h
  · exact Announces.trySend hstep
  · exact (Announces.trySend hfirst).trans (Announces.trySend hsecond)

/-- A packet waits for the check at `B`, or the check has received one there. -/
def Check.HeardAtB (s : State) (b : NodeIx) : Check → Prop
  | .sleeping .. | .receivingAToB .. => (s.nodes b).inbound.queue ≠ []
  | .receivingBToA aToB .. => aToB.isSome
  | .done (.error e) => e.aToBFailed = false
  | .done (.ok _) | .panicked => True

def Check.HeardAtA (s : State) (a : NodeIx) : Check → Prop
  | .sleeping .. | .receivingAToB .. | .receivingBToA .. => (s.nodes a).inbound.queue ≠ []
  | .done (.error e) => e.bToAFailed = false
  | .done (.ok _) | .panicked => True

theorem Check.heard_mono (check : Check) (hannounces : Announces net s s') :
    (check.HeardAtB s b → check.HeardAtB s' b) ∧ (check.HeardAtA s a → check.HeardAtA s' a) := by
  have hkept : ∀ i, (s.nodes i).inbound.queue ≠ [] → (s'.nodes i).inbound.queue ≠ [] := fun i hne hnil =>
    hne (List.subset_nil.1 (hnil ▸ hannounces.kept i))
  match check with
  | .sleeping .. | .receivingAToB .. => exact ⟨hkept b, hkept a⟩
  | .receivingBToA .. => exact ⟨id, hkept a⟩
  | .done (.error _) | .done (.ok _) | .panicked => exact ⟨id, id⟩

theorem failed_of_conclude {aToB bToA : Option (List DeliveredTransmit)} {check : Check}
    (h : conclude net a b s aToB bToA = some check) :
    (aToB.isSome → check.HeardAtB s b) ∧ (bToA.isSome → check.HeardAtA s a) := by
  cases aToB with
  | none =>
    obtain rfl := Option.some.inj h
    exact ⟨by simp, fun hb => by simpa [Check.HeardAtA] using hb⟩
  | some aToB =>
    cases bToA with
    | none =>
      obtain rfl := Option.some.inj h
      exact ⟨fun _ => rfl, by simp⟩
    | some bToA =>
      simp only [conclude, Option.bind_eq_bind, Option.bind_eq_some_iff] at h
      obtain ⟨t₁, -, t₂, -, h⟩ := h
      obtain rfl := Option.some.inj h
      exact ⟨fun _ => trivial, fun _ => trivial⟩

theorem CheckInv.heard {α : Action} (h : CheckInv net a b t₀ sends w) (htables : net.Tables spec)
    (hstep : w.step net a b α = some w') :
    (w.check.HeardAtB w.state b → w'.check.HeardAtB w'.state b) ∧
      (a ≠ b → w.check.HeardAtA w.state a → w'.check.HeardAtA w'.state a) := by
  have hsame : ∀ {s'}, Announces net w.state s' → w' = { w with state := s' } →
      (w.check.HeardAtB w.state b → w'.check.HeardAtB w'.state b) ∧
        (a ≠ b → w.check.HeardAtA w.state a → w'.check.HeardAtA w'.state a) := by
    rintro s' hannounces rfl
    exact ⟨(Check.heard_mono (a := a) _ hannounces).1, fun _ => (Check.heard_mono (b := b) _ hannounces).2⟩
  cases α with
  | network act =>
    rw [World.step] at hstep
    split_ifs at hstep with hinternal
    obtain ⟨s', hs', rfl⟩ := Option.map_eq_some_iff.1 hstep
    refine hsame (Announces.step hs' ?_) rfl
    rintro i metaLen rfl
    simp [QuicWorkbench.Action.isInternal] at hinternal
  | check uuids draws =>
    rw [World.step] at hstep
    obtain ⟨s, check⟩ := w
    have htraced : Traced net sends s := h.traced
    match check, h.fits, hstep with
    | .sleeping 0 deadline, _, hstep =>
      simp only [World.poll] at hstep
      split_ifs at hstep
      obtain rfl := Option.some.inj hstep
      exact ⟨id, fun _ => id⟩
    | .sleeping (attemptsLeft + 1) deadline, _, hstep =>
      simp only [World.poll] at hstep
      split_ifs at hstep
      obtain ⟨result, hresult, rfl⟩ := Option.map_eq_some_iff.1 hstep
      have hannounces := attempt_announces hresult
      cases result with
      | error s' => exact ⟨fun _ => trivial, fun _ _ => trivial⟩
      | ok s' =>
        have hmono := Check.heard_mono (a := a) (b := b) (.sleeping attemptsLeft (s'.now + pause)) hannounces
        exact ⟨hmono.1, fun _ => hmono.2⟩
    | .receivingAToB deadline delivery, hfits, hstep =>
      obtain ⟨-, -, rfl⟩ := hfits
      obtain ⟨result, inbound, heq, -, hresult⟩ := pollTimeout_cases htraced htables b deadline
      simp only [World.poll, heq] at hstep
      have hother : a ≠ b → ((s.setNode b { s.nodes b with inbound }).nodes a).inbound = (s.nodes a).inbound := fun hne => by
        simp [State.setNode, hne]
      cases hresult with
      | ready delivered =>
        obtain rfl := Option.some.inj hstep
        exact ⟨fun _ => rfl, fun hne hheard => by rwa [Check.HeardAtA, hother hne]⟩
      | elapsed hempty =>
        obtain rfl := Option.some.inj hstep
        exact ⟨fun hheard => absurd hempty hheard, fun hne hheard => by rwa [Check.HeardAtA, hother hne]⟩
      | pending hempty =>
        obtain rfl := Option.some.inj hstep
        exact ⟨fun hheard => absurd hempty hheard, fun hne hheard => by rwa [Check.HeardAtA, hother hne]⟩
    | .receivingBToA aToB deadline delivery, hfits, hstep =>
      obtain ⟨-, rfl, -⟩ := hfits
      obtain ⟨result, inbound, heq, -, hresult⟩ := pollTimeout_cases htraced htables a deadline
      simp only [World.poll, heq] at hstep
      cases hresult with
      | ready delivered =>
        obtain ⟨check, hcheck, rfl⟩ := Option.map_eq_some_iff.1 hstep
        exact ⟨(failed_of_conclude hcheck).1, fun _ _ => (failed_of_conclude hcheck).2 rfl⟩
      | elapsed hempty =>
        obtain ⟨check, hcheck, rfl⟩ := Option.map_eq_some_iff.1 hstep
        exact ⟨(failed_of_conclude hcheck).1, fun _ hheard => absurd hempty hheard⟩
      | pending hempty =>
        obtain rfl := Option.some.inj hstep
        exact ⟨id, fun _ hheard => absurd hempty hheard⟩
    | .done _, _, hstep => simp [World.poll] at hstep
    | .panicked, _, hstep => simp [World.poll] at hstep

/-! ### Results -/

section
variable {networkEvents : NetworkEvents} {s₀ : State} {simulationStart started now : Nat} {disableTimeWarping : Bool}
  {ipA ipB : IpAddr} {as : List Action}

theorem checkInv_of_run
    (hinit : InMemoryNetwork.initializeNetwork spec networkEvents simulationStart started now disableTimeWarping = .ok (net, s₀))
    (hnow : simulationStart ≤ now) (hids : (spec.nodes.map NetworkNodeSpec.id).Nodup) (ha : net.host ipA = some a)
    (hb : net.host ipB = some b) (hrun : (machine net a b).run (start s₀) as = some w) :
    ∃ sends, CheckInv net a b s₀.now sends w := by
  have hbuild := (InMemoryNetwork.initializeNetwork_ok hinit).1
  have htables := InMemoryNetwork.buildNetwork_tables hbuild
  have ha' := InMemoryNetwork.buildNetwork_bound hbuild ha
  have hb' := InMemoryNetwork.buildNetwork_bound hbuild hb
  have hinj : SocketAddr.mk ipA hostPort = ⟨ipB, hostPort⟩ → a = b := fun heq => by
    obtain rfl : ipA = ipB := congrArg SocketAddr.ip heq
    rw [ha] at hb
    exact Option.some.inj hb
  have hstart : CheckInv net a b s₀.now [] (start s₀) :=
    ⟨.initialized hinit hnow, by simp [Probes], Nat.le_refl _, Nat.le_refl _, by simp⟩
  refine Machine.run_invariant (M := machine net a b) (I := fun w => ∃ sends, CheckInv net a b s₀.now sends w)
    (fun w α w' hI hstep => ?_) ⟨[], hstart⟩ hrun
  obtain ⟨sends, hI⟩ := hI
  exact hI.step htables hids ha' hb' hinj hstep

/-- An error is reported after 100 minutes and 90 days at the earliest, and of a direction only if no packet waited for the
check at the host there, as long as it had not given up. -/
theorem error_of_run
    (hinit : InMemoryNetwork.initializeNetwork spec networkEvents simulationStart started now disableTimeWarping = .ok (net, s₀))
    (hnow : simulationStart ≤ now) (hids : (spec.nodes.map NetworkNodeSpec.id).Nodup) (ha : net.host ipA = some a)
    (hb : net.host ipB = some b) {as' : List Action} {w' : World} {e : Error}
    (hrun : (machine net a b).run (start s₀) as = some w) (hrun' : (machine net a b).run w as' = some w')
    (he : w'.check = .done (.error e)) :
    s₀.now + attempts * pause + timeout ≤ w'.state.now ∧ (e.aToBFailed ∨ e.bToAFailed) ∧
      (w.check.HeardAtB w.state b → e.aToBFailed = false) ∧
      (a ≠ b → w.check.HeardAtA w.state a → e.bToAFailed = false) := by
  have hbuild := (InMemoryNetwork.initializeNetwork_ok hinit).1
  have htables := InMemoryNetwork.buildNetwork_tables hbuild
  have hheard : (w.check.HeardAtB w.state b → w'.check.HeardAtB w'.state b) ∧
      (a ≠ b → w.check.HeardAtA w.state a → w'.check.HeardAtA w'.state a) := by
    have hI := Machine.run_invariant (M := machine net a b)
      (I := fun w' => (∃ as, (machine net a b).run (start s₀) as = some w') ∧
        (w.check.HeardAtB w.state b → w'.check.HeardAtB w'.state b) ∧
        (a ≠ b → w.check.HeardAtA w.state a → w'.check.HeardAtA w'.state a)) (fun w₁ α w₂ hI hstep => ?_)
      ⟨⟨as, hrun⟩, id, fun _ => id⟩ hrun'
    · exact hI.2
    · obtain ⟨⟨as₁, hrun₁⟩, hB, hA⟩ := hI
      obtain ⟨sends, h⟩ := checkInv_of_run hinit hnow hids ha hb hrun₁
      obtain ⟨hB', hA'⟩ := h.heard htables hstep
      refine ⟨⟨as₁ ++ [α], Machine.run_append_eq_some.2 ⟨w₁, hrun₁, Machine.run_cons_eq_some.2 ⟨w₂, hstep, rfl⟩⟩⟩, ?_, ?_⟩
      · exact fun hw => hB' (hB hw)
      · exact fun hne hw => hA' hne (hA hne hw)
  obtain ⟨sends, h⟩ := checkInv_of_run hinit hnow hids ha hb (Machine.run_append_eq_some.2 ⟨w, hrun, hrun'⟩)
  have hfits := h.fits
  rw [he] at hfits hheard
  exact ⟨hfits.1, hfits.2, hheard.1, hheard.2⟩

end

/-! ### A check of two hosts -/

/-- A poll of the check; the ids of its packets are `uuid` and the next one. -/
def pollWith (uuid : Uuid) : Action := .check (uuid, uuid + 1) (HostPair.draws 0, HostPair.draws 0)

/-- The first attempt. The packet to `B` arrives, and that to `A` stays in the queue of its link. -/
def firstAttempt : List Action :=
  pollWith 0 :: ([.nodeTask 0 HostPair.rolls, .linkTask 0 0, .nodeTask 1 HostPair.rolls, .advance (Duration.fromMillis 5),
    HostPair.forward 0] : List QuicWorkbench.Action).map .network

/-- The other attempts, and the waits for packets, the last one `wait` long. -/
def conclusion (wait : Nat) : List Action :=
  ((List.range 99).flatMap fun k => [.network (.advance pause), pollWith (BitVec.ofNat 128 (2 * k + 2))]) ++
    [.network (.advance pause), pollWith 0, pollWith 0, .network (.advance wait), pollWith 0]

def Check.result? : Check → Option (Except Error (Nat × Nat))
  | .done result => some result
  | _ => none

theorem Check.eq_done_of_result? {check : Check} {result : Except Error (Nat × Nat)} (h : check.result? = some result) :
    check = .done result := by
  unfold Check.result? at h
  split at h
  · rw [Option.some.inj h]
  · simp at h

instance (s : State) (b : NodeIx) : ∀ check : Check, Decidable (check.HeardAtB s b)
  | .sleeping .. | .receivingAToB .. => inferInstanceAs (Decidable ((s.nodes b).inbound.queue ≠ []))
  | .receivingBToA aToB .. => inferInstanceAs (Decidable (aToB.isSome = true))
  | .done (.error e) => inferInstanceAs (Decidable (e.aToBFailed = false))
  | .done (.ok _) | .panicked => isTrue trivial

/-- Two runs of the check on the graph, one after the other. -/
def simulateCheck (spec : NetworkSpec) (as as' : List Action) (P : NodeIx → NodeIx → World → World → Bool) : Bool :=
  simulateHosts spec (.v4 HostPair.a₁) (.v4 HostPair.b) fun net s a b =>
    ((machine net a b).run (start s) as).any fun w => ((machine net a b).run w as').any fun w' => P a b w w'

theorem exists_of_simulateCheck (as as' : List Action) {P : NodeIx → NodeIx → World → World → Bool}
    (h : simulateCheck hostLoop as as' P) :
    ∃ net s₀ a b w w', InMemoryNetwork.initializeNetwork hostLoop (.new [] hostLoop.nodes hostLoop.links) 0 0 0 false =
        .ok (net, s₀) ∧
      net.host (.v4 HostPair.a₁) = some a ∧ net.host (.v4 HostPair.b) = some b ∧
      (machine net a b).run (start s₀) as = some w ∧ (machine net a b).run w as' = some w' ∧ P a b w w' = true := by
  obtain ⟨net, s₀, a, b, hinit, ha, hb, h⟩ := exists_of_simulateHosts h
  obtain ⟨w, hrun, h⟩ := (Option.any_eq_true ..).1 h
  obtain ⟨w', hrun', h⟩ := (Option.any_eq_true ..).1 h
  exact ⟨net, s₀, a, b, w, w', hinit, ha, hb, hrun, hrun', h⟩

/-- The packet to `A` stays in the queue of its link, until the check gives up. -/
theorem error_hostLoop : ∃ net s₀ a b w w' e,
    InMemoryNetwork.initializeNetwork hostLoop (.new [] hostLoop.nodes hostLoop.links) 0 0 0 false = .ok (net, s₀) ∧
    (machine net a b).run (start s₀) firstAttempt = some w ∧ (machine net a b).run w (conclusion timeout) = some w' ∧
    w'.check = .done (.error e) ∧ s₀.now + attempts * pause + timeout ≤ w'.state.now ∧ (e.aToBFailed ∨ e.bToAFailed) ∧
    e.aToBFailed = false := by
  obtain ⟨net, s₀, a, b, w, w', hinit, ha, hb, hrun, hrun', h⟩ := exists_of_simulateCheck
    firstAttempt (conclusion timeout) (P := fun _ b w w' => decide (w'.check.result? = some (.error ⟨false, true⟩) ∧
      w.check.HeardAtB w.state b)) (by decide +kernel)
  obtain ⟨hresult, hheard⟩ := of_decide_eq_true h
  have hdone := Check.eq_done_of_result? hresult
  obtain ⟨hlate, hfailed, hB, -⟩ := error_of_run hinit (Nat.le_refl _) (by decide) ha hb hrun hrun' hdone
  exact ⟨net, s₀, a, b, w, w', _, hinit, hrun, hrun', hdone, hlate, hfailed, hB hheard⟩

end Connectivity
end QuicWorkbench
