import QuicWorkbench.Proofs.Hops
import QuicWorkbench.Proofs.Hosts
import QuicWorkbench.Udp.Ping

/-!
# What the ping test says

Every ping is in flight, lost or received, and each of these once; a lost one has been in flight until its deadline. The
round trip of a received one took no less than links that lead to the server and back. The assertions about sources and
payloads never fail, whatever the network drops, delays or duplicates.
-/

namespace QuicWorkbench
namespace Ping

/-! ### Payloads -/

theorem foldr_toLeBytes (k n : Nat) :
    (((List.range k).map fun j => (n / 256 ^ j).toUInt8).foldr (fun byte n => byte.toNat + 256 * n) 0) = n % 256 ^ k := by
  induction k generalizing n with
  | zero => simp [Nat.mod_one]
  | succ k ih =>
    have hdigits : ((List.range k).map (· + 1)).map (fun j => (n / 256 ^ j).toUInt8) =
        (List.range k).map fun j => (n / 256 / 256 ^ j).toUInt8 := by
      rw [List.map_map]
      refine List.map_congr_left fun j _ => ?_
      rw [Function.comp_apply, Nat.div_div_eq_div_mul, Nat.pow_succ, Nat.mul_comm]
    rw [List.range_succ_eq_map, List.map_cons, List.foldr_cons, hdigits, ih, Nat.pow_succ, Nat.mul_comm (256 ^ k), Nat.mod_mul]
    simp

theorem length_toLeBytes (n : Nat) : (toLeBytes n).length = 8 := by simp [toLeBytes]

theorem fromLeBytes_toLeBytes {n : Nat} (h : n ≤ u64Max) : fromLeBytes (toLeBytes n) = some n := by
  rw [fromLeBytes, if_pos (length_toLeBytes n), toLeBytes, foldr_toLeBytes, Nat.mod_eq_of_lt]
  rw [u64Max] at h
  omega

/-! ### Sends -/

def IsPing (o : Options) (client : NodeIx) (k : Nat) (x : Sending) : Prop := x.node = client ∧ x.transmit = ping o k

/-- The packet that the server got answers to a ping, which had the time to get there. -/
def Pinged (net : InMemoryNetwork) (o : Options) (server client : NodeIx) (sends : List Sending) (k time : Nat) : Prop :=
  ∃ y ∈ sends, IsPing o client k y ∧ ∃ D, Travels net.Linked client D server ∧ y.time + D ≤ time

/-- The server echoes the ping. -/
def IsEcho (net : InMemoryNetwork) (o : Options) (server client : NodeIx) (sends : List Sending) (k : Nat) (x : Sending) : Prop :=
  x.node = server ∧ x.transmit = { ping o k with destination := ⟨o.clientIp, 8080⟩ } ∧ Pinged net o server client sends k x.time

/-- The sends of the test, the pings being numbered. -/
structure Exchange (net : InMemoryNetwork) (o : Options) (server client : NodeIx) (n : Nat) (sends : List Sending) :
    Prop where
  kinds : ∀ x ∈ sends, ∃ k < n, IsPing o client k x ∨ IsEcho net o server client sends k x
  unique : ∀ x ∈ sends, ∀ y ∈ sends, ∀ k, IsPing o client k x → IsPing o client k y → x.time = y.time

variable {net : InMemoryNetwork} {spec : NetworkSpec} {o : Options} {server client : NodeIx} {sends : List Sending}
  {n : Nat} {s s' : State} {w w' : World}

theorem Pinged.append {k time : Nat} (h : Pinged net o server client sends k time) (new : List Sending) :
    Pinged net o server client (sends ++ new) k time := by
  obtain ⟨y, hy, hrest⟩ := h
  exact ⟨y, List.mem_append_left _ hy, hrest⟩

theorem IsEcho.append {k : Nat} {x : Sending} (h : IsEcho net o server client sends k x) (new : List Sending) :
    IsEcho net o server client (sends ++ new) k x :=
  ⟨h.1, h.2.1, h.2.2.append new⟩

theorem toLeBytes_inj {k k' : Nat} (hk : k ≤ u64Max) (hk' : k' ≤ u64Max) (h : toLeBytes k = toLeBytes k') : k = k' := by
  have := fromLeBytes_toLeBytes hk
  rw [h, fromLeBytes_toLeBytes hk'] at this
  exact (Option.some.inj this).symm

/-- The hosts of the test. -/
structure Hosts (net : InMemoryNetwork) (spec : NetworkSpec) (o : Options) (server client : NodeIx) : Prop
    extends QuicWorkbench.Hosts net spec o.serverIp o.clientIp server client where
  ne : o.serverIp ≠ o.clientIp

namespace Exchange
variable (hosts : Hosts net spec o server client)
include hosts

theorem server_ne_client : server ≠ client := by
  rintro rfl
  have heq := hosts.server.symm.trans hosts.client
  simp [hosts.ne] at heq

theorem ping (h : Exchange net o server client n sends) (hnr : n ≤ u64Max) {x : Sending}
    (hx : IsPing o client n x) : Exchange net o server client (n + 1) (sends ++ [x]) := by
  -- no earlier ping has this number
  have hnew : ∀ y ∈ sends, ∀ k, IsPing o client k y → IsPing o client k x → False := by
    intro y hy k hk hxk
    have hcontents : ∀ k', IsPing o client k' y → k' ≤ u64Max → k' = n := fun k' hk' hle => by
      have h₁ : toLeBytes k' = toLeBytes k := by
        have := hk'.2.symm.trans hk.2
        exact congrArg OwnedTransmit.contents this
      have h₂ : toLeBytes k = toLeBytes n := congrArg OwnedTransmit.contents (hxk.2.symm.trans hx.2)
      exact toLeBytes_inj hle hnr (h₁.trans h₂)
    obtain ⟨k', hk', hping | hecho⟩ := h.kinds y hy
    · exact absurd (hcontents k' hping (by omega)) (Nat.ne_of_lt hk')
    · exact server_ne_client hosts (hecho.1.symm.trans hk.1)
  refine ⟨fun y hy => ?_, fun y hy z hz k hyk hzk => ?_⟩
  · rcases List.mem_append.1 hy with hy | hy
    · obtain ⟨k, hk, hor⟩ := h.kinds y hy
      exact ⟨k, Nat.lt_succ_of_lt hk, hor.imp_right fun hecho => hecho.append _⟩
    · obtain rfl := List.mem_singleton.1 hy
      exact ⟨n, Nat.lt_succ_self _, .inl hx⟩
  · rcases List.mem_append.1 hy with hy' | hy' <;> rcases List.mem_append.1 hz with hz' | hz'
    · exact h.unique y hy' z hz' k hyk hzk
    · exact (hnew y hy' k hyk (List.mem_singleton.1 hz' ▸ hzk)).elim
    · exact (hnew z hz' k hzk (List.mem_singleton.1 hy' ▸ hyk)).elim
    · rw [List.mem_singleton.1 hy', List.mem_singleton.1 hz']

theorem echo (h : Exchange net o server client n sends) {x : Sending} {k : Nat} (hk : k < n)
    (hx : IsEcho net o server client sends k x) : Exchange net o server client n (sends ++ [x]) := by
  have hnot : ∀ k', ¬ IsPing o client k' x := fun k' hping => server_ne_client hosts (hx.1.symm.trans hping.1)
  refine ⟨fun y hy => ?_, fun y hy z hz k hyk hzk => ?_⟩
  · rcases List.mem_append.1 hy with hy | hy
    · obtain ⟨k, hk, hor⟩ := h.kinds y hy
      exact ⟨k, hk, hor.imp_right fun hecho => hecho.append _⟩
    · obtain rfl := List.mem_singleton.1 hy
      exact ⟨k, hk, .inr (hx.append _)⟩
  · rcases List.mem_append.1 hy with hy' | hy' <;> rcases List.mem_append.1 hz with hz' | hz'
    · exact h.unique y hy' z hz' k hyk hzk
    · exact absurd (List.mem_singleton.1 hz' ▸ hzk) (hnot k)
    · exact absurd (List.mem_singleton.1 hy' ▸ hyk) (hnot k)
    · exact absurd (List.mem_singleton.1 hy' ▸ hyk) (hnot k)

theorem at_server (h : Exchange net o server client n sends) {e : PrioritizedInTransitData}
    (he : CameTo net sends s server e) : ∃ k < n, Pinged net o server client sends k s.now ∧
      e.udpPacket = { sourceAddr := ⟨o.clientIp, hostPort⟩, payload := toLeBytes k } := by
  obtain ⟨x, D, hx, hdesc, htravels, hle⟩ := he.sentAs
  have hx := List.mem_of_getElem? hx
  obtain ⟨ecn, htransmit⟩ := hdesc.transmit
  have hhere := he.here
  rw [hosts.server, Option.any_some, decide_eq_true_eq, htransmit] at hhere
  obtain ⟨k, hk, hping | hecho⟩ := h.kinds x hx
  · refine ⟨k, hk, ⟨x, hx, hping, D, hping.1 ▸ htravels, hle⟩, ?_⟩
    have hendpoint := hdesc.endpoint
    rw [hping.1, hosts.client] at hendpoint
    rw [PrioritizedInTransitData.udpPacket, htransmit, hping.2, ← Option.some.inj hendpoint]
    rfl
  · -- echoes have another destination
    rw [hecho.2.1] at hhere
    exact absurd (congrArg SocketAddr.ip hhere) hosts.ne

theorem at_client (h : Exchange net o server client n sends) {e : PrioritizedInTransitData}
    (he : CameTo net sends s client e) : ∃ k < n, (∃ time D, Pinged net o server client sends k time ∧
      Travels net.Linked server D client ∧ time + D ≤ s.now) ∧
      e.udpPacket = { sourceAddr := ⟨o.serverIp, hostPort⟩, payload := toLeBytes k } := by
  obtain ⟨x, D, hx, hdesc, htravels, hle⟩ := he.sentAs
  have hx := List.mem_of_getElem? hx
  obtain ⟨ecn, htransmit⟩ := hdesc.transmit
  have hhere := he.here
  rw [hosts.client, Option.any_some, decide_eq_true_eq, htransmit] at hhere
  obtain ⟨k, hk, hping | hecho⟩ := h.kinds x hx
  · rw [hping.2] at hhere
    exact absurd (congrArg SocketAddr.ip hhere).symm hosts.ne
  · refine ⟨k, hk, ⟨x.time, D, hecho.2.2, hecho.1 ▸ htravels, hle⟩, ?_⟩
    have hendpoint := hdesc.endpoint
    rw [hecho.1, hosts.server] at hendpoint
    rw [PrioritizedInTransitData.udpPacket, htransmit, hecho.2.1, ← Option.some.inj hendpoint]
    rfl

omit hosts in
theorem length_contents_le (h : Exchange net o server client n sends) (x : Sending) (hx : x ∈ sends) :
    x.transmit.contents.length ≤ 1200 := by
  obtain ⟨k, -, hping | hecho⟩ := h.kinds x hx
  · rw [hping.2, Ping.ping, length_toLeBytes]
    decide
  · rw [hecho.2.1, Ping.ping, length_toLeBytes]
    decide

end Exchange

/-! ### Lines -/

/-- What a line says of the ping is right. -/
def Line.Honest (net : InMemoryNetwork) (o : Options) (server client : NodeIx) (sends : List Sending) : Line → Prop
  | .received k sent t => (∃ x ∈ sends, IsPing o client k x ∧ x.time = sent) ∧
      ∃ D₁ D₂, Travels net.Linked client D₁ server ∧ Travels net.Linked server D₂ client ∧ sent + D₁ + D₂ ≤ t
  | .lost k sent t => (∃ x ∈ sends, IsPing o client k x ∧ x.time = sent) ∧ sent + o.deadline ≤ t

def Line.received? : Line → Option Nat
  | .received k _ _ => some k
  | .lost .. => none

theorem Line.Honest.append {line : Line} (h : line.Honest net o server client sends) (new : List Sending) :
    line.Honest net o server client (sends ++ new) := by
  have hgo : ∀ {k t}, (∃ x ∈ sends, IsPing o client k x ∧ x.time = t) →
      ∃ x ∈ sends ++ new, IsPing o client k x ∧ x.time = t := fun ⟨x, hx, hrest⟩ => ⟨x, List.mem_append_left _ hx, hrest⟩
  cases line with
  | received k sent received => exact ⟨hgo h.1, h.2⟩
  | lost k sent lost => exact ⟨hgo h.1, h.2⟩

/-- The records of the client. -/
structure Records (net : InMemoryNetwork) (o : Options) (server client : NodeIx) (sends : List Sending) (w : World) : Prop where
  flights : ∀ k t, w.inFlight.lookup k = some t → ∃ x ∈ sends, IsPing o client k x ∧ x.time = t
  once : (w.inFlight.keys ++ w.lost ++ w.lines.filterMap Line.received?).Perm (List.range w.pingNr)
  tracked : ∀ k t, w.inFlight.lookup k = some t → (k, t + o.deadline) ∈ w.deadlines ∨ k = u64Max
  due : ∀ k due, (k, due) ∈ w.deadlines → k < w.pingNr ∧ ∀ t, w.inFlight.lookup k = some t → due = t + o.deadline
  lines : ∀ line ∈ w.lines, line.Honest net o server client sends

/-- The pings sent have numbers below `n`, the last of them perhaps by a `forward` that panicked. -/
structure PingInv (net : InMemoryNetwork) (o : Options) (server client : NodeIx) (sends : List Sending) (n : Nat) (w : World) :
    Prop where
  traced : Traced net sends w.state
  exchange : Exchange net o server client n sends
  numbers : n ≤ u64Max + 1
  sender : w.sender ≠ .panicked → w.pingNr = n ∧ n ≤ u64Max
  records : Records net o server client sends w
  serverSlots : w.serverSlots.Sized 1200 5
  clientSlots : w.clientSlots.Sized 1200 5
  sockets : ∀ i delivery, w.state.sockets i = some delivery → delivery = .new 5

namespace Records

theorem append (h : Records net o server client sends w) (new : List Sending) : Records net o server client (sends ++ new) w where
  flights k t hk := by
    obtain ⟨x, hx, hrest⟩ := h.flights k t hk
    exact ⟨x, List.mem_append_left _ hx, hrest⟩
  once := h.once
  tracked := h.tracked
  due := h.due
  lines line hline := (h.lines line hline).append new

theorem lookup_lt (h : Records net o server client sends w) {k t : Nat} (hk : w.inFlight.lookup k = some t) : k < w.pingNr := by
  have hmem : k ∈ w.inFlight.keys := AList.lookup_isSome.1 (by rw [hk]; rfl)
  exact List.mem_range.1 (h.once.mem_iff.1 (by simp [hmem]))

theorem remove (h : Records net o server client sends w) {k t : Nat} (hk : w.inFlight.lookup k = some t) (line : Line)
    (deadlines : List (Nat × Nat)) (lost : List Nat) (hline : line.Honest net o server client sends)
    (hdeadlines : ∀ x ∈ w.deadlines, x ∈ deadlines ∨ x.1 = k)
    (hsub : deadlines ⊆ w.deadlines) (hone : lost ++ (Line.received? line).toList = [k]) :
    Records net o server client sends { w with
      inFlight := w.inFlight.erase k
      deadlines
      lost := w.lost ++ lost
      lines := w.lines ++ [line] } := by
  have hlookup : ∀ k' t', (w.inFlight.erase k).lookup k' = some t' → k' ≠ k ∧ w.inFlight.lookup k' = some t' := by
    intro k' t' hk'
    have hne : k' ≠ k := by
      rintro rfl
      simp at hk'
    exact ⟨hne, by rwa [AList.lookup_erase_ne hne] at hk'⟩
  refine ⟨fun k' t' hk' => h.flights k' t' (hlookup k' t' hk').2, ?_, fun k' t' hk' => ?_, fun k' due hdue => ?_, fun l hl => ?_⟩
  · have hmem : k ∈ w.inFlight.keys := AList.lookup_isSome.1 (by rw [hk]; rfl)
    refine List.Perm.trans ?_ h.once
    have hkeys : (w.inFlight.keys).Perm (k :: (w.inFlight.erase k).keys) := by
      rw [AList.keys_erase]
      exact List.perm_cons_erase hmem
    refine List.perm_iff_count.2 fun a => ?_
    have hkeys := hkeys.count_eq a
    have hone := congrArg (List.count a) hone
    have hlines : [line].filterMap Line.received? = line.received?.toList := by
      cases hline : line.received? <;> simp [hline]
    simp only [List.filterMap_append, hlines, List.count_append, List.count_cons, List.count_nil] at hkeys hone ⊢
    omega
  · obtain ⟨hne, hold⟩ := hlookup k' t' hk'
    refine (h.tracked k' t' hold).imp_left fun hmem => ?_
    exact (hdeadlines _ hmem).resolve_right hne
  · obtain ⟨hlt, hall⟩ := h.due k' due (hsub hdue)
    exact ⟨hlt, fun t' ht' => hall t' (hlookup k' t' ht').2⟩
  · rcases List.mem_append.1 hl with hl | hl
    · exact h.lines l hl
    · exact List.mem_singleton.1 hl ▸ hline

end Records

/-! ### Steps -/

theorem not_running_of_echoAll {s' : State} {packets : List UdpPacket} {draws : Nat → Uuid × Draws}
    (h : echoAll net o server packets draws s = some (.error s')) : s.nodeTasks server ≠ .running := by
  induction packets generalizing draws s with
  | nil => simp [echoAll] at h
  | cons packet packets ih =>
    rw [echoAll] at h
    split_ifs at h
    cases hresult : s.sendFrom net server (echo o packet) (draws 0).1 (draws 0).2 with
    | none => simp [hresult] at h
    | some result =>
      cases result with
      | error s₁ => exact State.not_running_of_sendFrom hresult
      | ok s₁ =>
        rw [hresult] at h
        rw [← State.nodeTasks_of_sendFrom hresult]
        exact ih h

section
variable (hosts : Hosts net spec o server client)
include hosts

/-- The packets are pings that came to the server, and are echoed one after the other. -/
theorem echoAll_of_pinged (packets : List UdpPacket) (draws : Nat → Uuid × Draws) (htraced : Traced net sends s)
    (hexchange : Exchange net o server client n sends)
    (hpackets : ∀ packet ∈ packets, ∃ k < n, Pinged net o server client sends k s.now ∧
      packet = { sourceAddr := ⟨o.clientIp, hostPort⟩, payload := toLeBytes k }) :
    ∃ result sends', echoAll net o server packets draws s = some result ∧ Traced net sends' (State.settled result) ∧
      Exchange net o server client n sends' ∧ sends <+: sends' ∧ (State.settled result).sockets = s.sockets := by
  induction packets generalizing draws s sends with
  | nil => exact ⟨_, sends, rfl, htraced, hexchange, List.prefix_refl _, rfl⟩
  | cons packet packets ih =>
    obtain ⟨k, hk, hpinged, rfl⟩ := hpackets packet (List.mem_cons_self ..)
    obtain ⟨result, hresult⟩ := State.exists_sendFrom (s := s) hosts.server
      (echo o { sourceAddr := ⟨o.clientIp, hostPort⟩, payload := toLeBytes k }) rfl (draws 0).1 (draws 0).2
    have hstep := State.trySend_of_sendFrom hresult
    have hannounces := Announces.trySend hstep
    have htraced' := htraced.step hosts.tables (a := .trySend _ _ _ _) hstep
    have hexchange' := hexchange.echo hosts hk (x := ⟨s.now, server, _⟩) ⟨rfl, rfl, hpinged⟩
    rw [echoAll, if_neg (by simp), hresult]
    cases result with
    | error s' => exact ⟨_, _, rfl, htraced', hexchange', List.prefix_append _ _, hannounces.sockets⟩
    | ok s' =>
      obtain ⟨result, sends', heq, htraced'', hexchange'', hgrows, hsockets⟩ :=
        ih (fun k => draws (k + 1)) htraced' hexchange' fun packet hpacket => by
          obtain ⟨k, hk, ⟨y, hy, hping, D, htravels, hle⟩, rfl⟩ := hpackets packet (List.mem_cons_of_mem _ hpacket)
          exact ⟨k, hk, ⟨y, List.mem_append_left _ hy, hping, D, htravels, hle.trans hannounces.now⟩, rfl⟩
      exact ⟨result, sends', heq, htraced'', hexchange'', (List.prefix_append _ _).trans hgrows, hsockets.trans hannounces.sockets⟩

omit hosts in
theorem foldlM_receiveEcho (packets : List UdpPacket) (hrecords : Records net o server client sends w) (hn : n ≤ u64Max + 1)
    (hexchange : Exchange net o server client n sends)
    (hpackets : ∀ packet ∈ packets, ∃ k < n, (∃ time D, Pinged net o server client sends k time ∧
      Travels net.Linked server D client ∧ time + D ≤ w.state.now) ∧
      packet = { sourceAddr := ⟨o.serverIp, hostPort⟩, payload := toLeBytes k }) :
    ∃ inFlight lines, packets.foldlM (fun w packet => w.receiveEcho o packet) w = some { w with inFlight, lines } ∧
      Records net o server client sends { w with inFlight, lines } := by
  induction packets generalizing w with
  | nil => exact ⟨_, _, rfl, hrecords⟩
  | cons packet packets ih =>
    obtain ⟨k, hk, ⟨time, D₂, ⟨y, hy, hping, D₁, htravels₁, hle₁⟩, htravels₂, hle₂⟩, rfl⟩ := hpackets packet (List.mem_cons_self ..)
    have hk' : fromLeBytes (toLeBytes k) = some k := fromLeBytes_toLeBytes (by omega)
    rw [List.foldlM_cons, World.receiveEcho, if_neg (by simp), hk']
    cases hlookup : w.inFlight.lookup k with
    | none =>
      simp only [hlookup, Option.bind_eq_bind, Option.bind_some]
      exact ih hrecords fun packet hpacket => hpackets packet (List.mem_cons_of_mem _ hpacket)
    | some sent =>
      simp only [hlookup, Option.bind_eq_bind, Option.bind_some]
      obtain ⟨x, hx, hpingx, rfl⟩ := hrecords.flights k sent hlookup
      have hsent := hexchange.unique x hx y hy k hpingx hping
      have hrecords' := hrecords.remove hlookup (.received k x.time w.state.now) w.deadlines []
        ⟨⟨x, hx, hpingx, rfl⟩, D₁, D₂, htravels₁, htravels₂, by omega⟩ (fun _ h => .inl h) (List.Subset.refl _) rfl
      rw [List.append_nil] at hrecords'
      obtain ⟨inFlight, lines, heq, hrecords''⟩ := ih hrecords' fun packet hpacket =>
        hpackets packet (List.mem_cons_of_mem _ hpacket)
      exact ⟨inFlight, lines, heq, hrecords''⟩

/-- A poll of the server does not run into a failing assertion, and panics only where the task of its host has ended. -/
theorem PingInv.serve (h : PingInv net o server client sends n w) (draws : Nat → Uuid × Draws) :
    ∃ w' sends', w.serve net o server draws = some w' ∧ PingInv net o server client sends' n w' ∧ sends <+: sends' ∧
      (w.serverPanicked = false → w'.serverPanicked → w.state.nodeTasks server ≠ .running) := by
  obtain ⟨r, taken, hr, hreceives, htraced, hnow, hcame⟩ := h.traced.exists_receive hosts.tables (i := server)
    (by rw [hosts.server]; rfl) (by decide) h.serverSlots (h.sockets server) h.exchange.length_contents_le
  obtain ⟨result, sends', hresult, htraced', hexchange', ⟨new, rfl⟩, hsockets⟩ :=
    echoAll_of_pinged hosts (r.packets.getD []) draws htraced h.exchange fun packet hpacket => by
      rw [hreceives.packets] at hpacket
      obtain ⟨e, he, rfl⟩ := List.mem_map.1 hpacket
      exact h.exchange.at_server hosts (hcame e he)
  have hsocket : ∀ i delivery, (State.settled result).sockets i = some delivery → delivery = .new 5 := fun i delivery hi => by
    rw [hsockets] at hi
    exact hreceives.sockets_new h.sockets i delivery hi
  have hrecords := h.records.append new
  simp only [World.serve, hr, hresult, Option.bind_eq_bind, Option.bind_some]
  cases result with
  | error s' =>
    refine ⟨_, _, rfl, ⟨htraced', hexchange', h.numbers, h.sender, { hrecords with }, hreceives.sized, h.clientSlots, hsocket⟩,
      ⟨new, rfl⟩, fun _ _ => ?_⟩
    rw [← hreceives.nodeTasks]
    exact not_running_of_echoAll hresult
  | ok s' =>
    refine ⟨_, _, rfl, ⟨htraced', hexchange', h.numbers, h.sender, { hrecords with }, hreceives.sized, h.clientSlots, hsocket⟩,
      ⟨new, rfl⟩, fun hfalse htrue => ?_⟩
    simp [hfalse] at htrue

theorem PingInv.receiveEchoes (h : PingInv net o server client sends n w) :
    ∃ w', w.receiveEchoes net o client = some w' ∧ PingInv net o server client sends n w' := by
  obtain ⟨r, taken, hr, hreceives, htraced, hnow, hcame⟩ := h.traced.exists_receive hosts.tables (i := client)
    (by rw [hosts.client]; rfl) (by decide) h.clientSlots (h.sockets client) h.exchange.length_contents_le
  have hrecords : Records net o server client sends { w with state := r.state, clientSlots := r.slots } := { h.records with }
  obtain ⟨inFlight, lines, heq, hrecords'⟩ := foldlM_receiveEcho (r.packets.getD []) hrecords h.numbers
    h.exchange fun packet hpacket => by
      rw [hreceives.packets] at hpacket
      obtain ⟨e, he, rfl⟩ := List.mem_map.1 hpacket
      exact h.exchange.at_client hosts (hcame e he)
  refine ⟨_, by simp only [World.receiveEchoes, hr, Option.bind_eq_bind, Option.bind_some]; exact heq, ?_⟩
  exact ⟨htraced, h.exchange, h.numbers, h.sender, hrecords', h.serverSlots, hreceives.sized, hreceives.sockets_new h.sockets⟩

omit hosts in
theorem Records.insert {deadlines : List (Nat × Nat)} {state : State} {sender : Sender} (h : Records net o server client sends w)
    {x : Sending} (hx : IsPing o client w.pingNr x)
    (hdeadlines : deadlines = w.deadlines ++ [(w.pingNr, x.time + o.deadline)] ∨ deadlines = w.deadlines ∧ w.pingNr = u64Max) :
    Records net o server client (sends ++ [x]) { w with
      state, deadlines, sender
      inFlight := w.inFlight.insert w.pingNr x.time
      pingNr := w.pingNr + 1 } := by
  have happend := h.append [x]
  have hlookup : ∀ k t, (w.inFlight.insert w.pingNr x.time).lookup k = some t →
      k = w.pingNr ∧ t = x.time ∨ k ≠ w.pingNr ∧ w.inFlight.lookup k = some t := by
    intro k t hk
    by_cases heq : k = w.pingNr
    · subst heq
      rw [AList.lookup_insert] at hk
      exact .inl ⟨rfl, (Option.some.inj hk).symm⟩
    · rw [AList.lookup_insert_ne heq] at hk
      exact .inr ⟨heq, hk⟩
  have hmono : ∀ x ∈ w.deadlines, x ∈ deadlines := fun x hx => by
    rcases hdeadlines with rfl | ⟨rfl, -⟩
    · exact List.mem_append_left _ hx
    · exact hx
  refine ⟨fun k t hk => ?_, ?_, fun k t hk => ?_, fun k due hdue => ?_, happend.lines⟩
  · rcases hlookup k t hk with ⟨rfl, rfl⟩ | ⟨-, hold⟩
    · exact ⟨x, List.mem_append_right _ (List.mem_singleton_self x), hx, rfl⟩
    · exact happend.flights k t hold
  · have hnot : w.pingNr ∉ w.inFlight.keys := fun hmem => by
      obtain ⟨t, ht⟩ := Option.isSome_iff_exists.1 (AList.lookup_isSome.2 hmem)
      exact Nat.lt_irrefl _ (h.lookup_lt ht)
    have hkeys : (w.inFlight.insert w.pingNr x.time).keys = w.pingNr :: w.inFlight.keys := by
      rw [AList.keys_insert, List.erase_of_not_mem hnot]
    show ((w.inFlight.insert w.pingNr x.time).keys ++ w.lost ++ w.lines.filterMap Line.received?).Perm (List.range (w.pingNr + 1))
    rw [hkeys, List.range_succ]
    exact (h.once.cons w.pingNr).trans (List.perm_append_singleton _ _).symm
  · rcases hlookup k t hk with ⟨rfl, rfl⟩ | ⟨-, hold⟩
    · rcases hdeadlines with rfl | ⟨-, hmax⟩
      · exact .inl (List.mem_append_right _ (List.mem_singleton_self _))
      · exact .inr hmax
    · exact (h.tracked k t hold).imp_left (hmono _)
  · have hold : (k, due) ∈ w.deadlines → k < w.pingNr + 1 ∧
        ∀ t, (w.inFlight.insert w.pingNr x.time).lookup k = some t → due = t + o.deadline := fun hmem => by
      obtain ⟨hlt, hall⟩ := h.due k due hmem
      refine ⟨Nat.lt_succ_of_lt hlt, fun t ht => ?_⟩
      rcases hlookup k t ht with ⟨rfl, -⟩ | ⟨-, ht⟩
      · exact absurd hlt (Nat.lt_irrefl _)
      · exact hall t ht
    rcases hdeadlines with rfl | ⟨rfl, -⟩
    · rcases List.mem_append.1 hdue with hdue | hdue
      · exact hold hdue
      · obtain ⟨rfl, rfl⟩ := Prod.mk.inj (List.mem_singleton.1 hdue)
        refine ⟨Nat.lt_succ_self _, fun t ht => ?_⟩
        rcases hlookup _ t ht with ⟨-, rfl⟩ | ⟨hne, -⟩
        · rfl
        · exact absurd rfl hne
    · exact hold hdue

omit hosts in
/-- The next ping is sent. The sender panics only where the task of its host has ended, or with the last number. -/
theorem exists_send {endpoint : UdpEndpoint} (hclient : (net.node client).udpEndpoint = some endpoint) {deadline : Nat}
    (hsender : w.sender = .sleeping deadline) (hdue : deadline ≤ w.state.now) (uuid : Uuid) (draws : Draws) :
    ∃ w', w.send net o client uuid draws = some w' ∧
      (w'.sender = .panicked → w.state.nodeTasks client ≠ .running ∨ w.pingNr = u64Max) := by
  obtain ⟨result, hresult⟩ := State.exists_sendFrom (s := w.state) hclient (Ping.ping o w.pingNr) rfl uuid draws
  simp only [World.send, hsender, if_neg (Nat.not_lt.2 hdue), hresult]
  cases result with
  | error state => exact ⟨_, rfl, fun _ => .inl (State.not_running_of_sendFrom hresult)⟩
  | ok state =>
    by_cases hlast : w.pingNr = u64Max
    · exact ⟨_, if_pos hlast, fun _ => .inr hlast⟩
    · exact ⟨_, if_neg hlast, fun hpanicked => by simp at hpanicked⟩

theorem PingInv.send {uuid : Uuid} {draws : Draws} (h : PingInv net o server client sends n w)
    (hsend : w.send net o client uuid draws = some w') :
    ∃ sends' n', PingInv net o server client sends' n' w' ∧ sends <+: sends' := by
  unfold World.send at hsend
  split at hsend
  · simp at hsend
  · rename_i deadline hsender
    split_ifs at hsend with hdue
    obtain ⟨hnr, hmax⟩ := h.sender (by rw [hsender]; simp)
    subst hnr
    have hexchange := h.exchange.ping hosts hmax (x := ⟨w.state.now, client, _⟩) ⟨rfl, rfl⟩
    cases hresult : w.state.sendFrom net client (ping o w.pingNr) uuid draws with
    | none => simp [hresult] at hsend
    | some result =>
      have hstep := State.trySend_of_sendFrom hresult
      have htraced := h.traced.step hosts.tables (a := .trySend _ _ _ _) hstep
      obtain ⟨kinds, hstretch⟩ := Stretches.trySend hstep
      have hsockets : ∀ i delivery, (State.settled result).sockets i = some delivery → delivery = .new 5 := fun i delivery hi => by
        rw [(Announces.trySend hstep).sockets] at hi
        exact h.sockets i delivery hi
      cases result with
      | error state =>
        simp only [hresult] at hsend
        obtain rfl := Option.some.inj hsend
        exact ⟨_, _, ⟨htraced, hexchange, by omega, by simp, { h.records.append _ with }, h.serverSlots, h.clientSlots, hsockets⟩,
          List.prefix_append _ _⟩
      | ok state =>
        have hnow : state.now = w.state.now := hstretch.now
        simp only [hresult, hnow] at hsend
        split_ifs at hsend with hoverflow
        · obtain rfl := Option.some.inj hsend
          refine ⟨_, _, ⟨htraced, hexchange, by omega, by simp, ?_, h.serverSlots, h.clientSlots, hsockets⟩, List.prefix_append _ _⟩
          exact h.records.insert (x := ⟨w.state.now, client, _⟩) ⟨rfl, rfl⟩ (.inr ⟨rfl, hoverflow⟩)
        · obtain rfl := Option.some.inj hsend
          refine ⟨_, _, ⟨htraced, hexchange, by omega, fun _ => ⟨rfl, by omega⟩, ?_, h.serverSlots, h.clientSlots, hsockets⟩,
            List.prefix_append _ _⟩
          exact h.records.insert (x := ⟨w.state.now, client, _⟩) ⟨rfl, rfl⟩ (.inl rfl)

omit hosts in
theorem PingInv.passDeadline {k : Nat} (h : PingInv net o server client sends n w) (hpass : w.passDeadline k = some w') :
    PingInv net o server client sends n w' := by
  unfold World.passDeadline at hpass
  cases hk : w.deadlines[k]? with
  | none => simp [hk] at hpass
  | some task =>
    obtain ⟨nr, due⟩ := task
    simp only [hk] at hpass
    split_ifs at hpass with hdue
    have hmem : ∀ x ∈ w.deadlines, x ∈ w.deadlines.eraseIdx k ∨ x.1 = nr := fun x hx => by
      obtain ⟨k', hk', rfl⟩ := List.getElem_of_mem hx
      by_cases heq : k' = k
      · subst heq
        rw [List.getElem?_eq_getElem hk'] at hk
        rw [Option.some.inj hk]
        exact .inr rfl
      · exact .inl (List.mem_eraseIdx_iff_getElem?.2 ⟨k', heq, List.getElem?_eq_getElem hk'⟩)
    have hsub : w.deadlines.eraseIdx k ⊆ w.deadlines := (List.eraseIdx_sublist ..).subset
    have hdeadline := h.records.due nr due (List.mem_of_getElem? hk)
    cases hlookup : w.inFlight.lookup nr with
    | none =>
      simp only [hlookup] at hpass
      obtain rfl := Option.some.inj hpass
      have hother : ∀ k' t, w.inFlight.lookup k' = some t → k' ≠ nr := by
        rintro k' t hk' rfl
        simp [hlookup] at hk'
      exact { h with records := { h.records with
        tracked := fun k' t hk' => (h.records.tracked k' t hk').imp_left fun hold => (hmem _ hold).resolve_right (hother k' t hk')
        due := fun k' due' hold => h.records.due k' due' (hsub hold) } }
    | some sent =>
      simp only [hlookup] at hpass
      obtain rfl := Option.some.inj hpass
      have hlost := hdeadline.2 sent hlookup
      have hrecords := h.records.remove hlookup (.lost nr sent w.state.now) (w.deadlines.eraseIdx k) [nr]
        ⟨h.records.flights nr sent hlookup, by omega⟩ hmem hsub rfl
      exact { h with records := hrecords }

theorem PingInv.network {a : QuicWorkbench.Action} (h : PingInv net o server client sends n w) (hinternal : a.isInternal)
    (hstep : net.step w.state a = some s') : PingInv net o server client sends n { w with state := s' } := by
  have hsending : a.sending w.state = none := by
    cases a <;> first | rfl | simp [QuicWorkbench.Action.isInternal] at hinternal
  have hannounces := Announces.step hstep (by rintro i metaLen rfl; simp [QuicWorkbench.Action.isInternal] at hinternal)
  have htraced := h.traced.step hosts.tables hstep
  rw [hsending, Option.toList_none, List.append_nil] at htraced
  refine ⟨htraced, h.exchange, h.numbers, h.sender, { h.records with }, h.serverSlots, h.clientSlots, fun i delivery hi => ?_⟩
  have hi : s'.sockets i = some delivery := hi
  rw [hannounces.sockets] at hi
  exact h.sockets i delivery hi

theorem PingInv.step {a : Action} (h : PingInv net o server client sends n w) (hstep : w.step net o server client a = some w') :
    ∃ sends' n', PingInv net o server client sends' n' w' := by
  cases a with
  | network a =>
    rw [World.step] at hstep
    split_ifs at hstep with hinternal
    obtain ⟨s', hs', rfl⟩ := Option.map_eq_some_iff.1 hstep
    exact ⟨sends, n, h.network hosts hinternal hs'⟩
  | server draws =>
    rw [World.step] at hstep
    split_ifs at hstep
    obtain ⟨w'', sends', hw'', hinv, -⟩ := h.serve hosts draws
    obtain rfl := Option.some.inj (hw''.symm.trans hstep)
    exact ⟨sends', n, hinv⟩
  | sender uuid draws =>
    obtain ⟨sends', n', hinv, -⟩ := h.send hosts hstep
    exact ⟨sends', n', hinv⟩
  | deadline k => exact ⟨sends, n, h.passDeadline hstep⟩
  | receiver =>
    obtain ⟨w'', hw'', hinv⟩ := h.receiveEchoes hosts
    obtain rfl := Option.some.inj (hw''.symm.trans hstep)
    exact ⟨sends, n, hinv⟩

end

/-! ### When pings are sent -/

/-- The instant at which the action sends a ping. -/
def Action.pingTime (w : World) : Action → Option Nat
  | .sender .. => some w.state.now
  | _ => none

/-- The instants at which a run sends pings, by number. -/
def pingTimes (net : InMemoryNetwork) (o : Options) (server client : NodeIx) : World → List Action → List Nat
  | _, [] => []
  | w, a :: as => (a.pingTime w).toList ++ ((w.step net o server client a).map (pingTimes net o server client · as)).getD []

def Line.pingNr : Line → Nat
  | .received k .. | .lost k .. => k

def Line.sent : Line → Nat
  | .received _ sent _ | .lost _ sent _ => sent

/-- The records of the client are about pings sent at `times`, an interval apart. -/
structure Timed (o : Options) (times : List Nat) (w : World) : Prop where
  length : w.sender ≠ .panicked → times.length = w.pingNr
  flights : ∀ k t, w.inFlight.lookup k = some t → times[k]? = some t
  lines : ∀ line ∈ w.lines, times[line.pingNr]? = some line.sent
  apart : times.IsChain fun t t' => t + o.interval ≤ t'
  sleeping : ∀ deadline, w.sender = .sleeping deadline → ∀ t ∈ times.getLast?, t + o.interval ≤ deadline

namespace Timed
variable {times : List Nat}

theorem remove (h : Timed o times w) {k t : Nat} (hk : w.inFlight.lookup k = some t) {line : Line}
    (hline : line.pingNr = k ∧ line.sent = t) (deadlines : List (Nat × Nat)) (lost : List Nat) :
    Timed o times { w with inFlight := w.inFlight.erase k, lines := w.lines ++ [line], deadlines, lost } := by
  refine { h with flights := fun k' t' hk' => ?_, lines := fun l hl => ?_ }
  · have hne : k' ≠ k := by
      rintro rfl
      simp at hk'
    rw [AList.lookup_erase_ne hne] at hk'
    exact h.flights k' t' hk'
  · rcases List.mem_append.1 hl with hl | hl
    · exact h.lines l hl
    · rw [List.mem_singleton.1 hl, hline.1, hline.2]
      exact h.flights k t hk

theorem receiveEcho {packet : UdpPacket} (h : Timed o times w) (hw : w.receiveEcho o packet = some w') : Timed o times w' := by
  unfold World.receiveEcho at hw
  split_ifs at hw
  split at hw
  · simp at hw
  · split at hw
    · obtain rfl := Option.some.inj hw
      exact h
    · rename_i hlookup
      obtain rfl := Option.some.inj hw
      exact h.remove hlookup ⟨rfl, rfl⟩ w.deadlines w.lost

theorem receiveEchoes {packets : List UdpPacket} (h : Timed o times w)
    (hw : packets.foldlM (fun w packet => World.receiveEcho o w packet) w = some w') : Timed o times w' := by
  induction packets generalizing w with
  | nil =>
    obtain rfl := Option.some.inj hw
    exact h
  | cons packet packets ih =>
    rw [List.foldlM_cons] at hw
    obtain ⟨w₁, hw₁, hw⟩ := Option.bind_eq_some_iff.1 hw
    exact ih (h.receiveEcho hw₁) hw

theorem send {uuid : Uuid} {draws : Draws} (h : Timed o times w) (hsend : w.send net o client uuid draws = some w') :
    Timed o (times ++ [w.state.now]) w' := by
  unfold World.send at hsend
  split at hsend
  · simp at hsend
  · rename_i deadline hsender
    split_ifs at hsend with hdue
    have hlen : times.length = w.pingNr := h.length (by rw [hsender]; simp)
    have hold : ∀ {k t}, times[k]? = some t → (times ++ [w.state.now])[k]? = some t := fun {k t} hk =>
      (List.getElem?_append_left (List.getElem?_eq_some_iff.1 hk).1).trans hk
    have hapart : (times ++ [w.state.now]).IsChain fun t t' => t + o.interval ≤ t' := by
      refine List.isChain_append.2 ⟨h.apart, List.isChain_singleton _, fun t ht t' ht' => ?_⟩
      obtain rfl : w.state.now = t' := Option.some.inj ht'
      have := h.sleeping deadline hsender t ht
      omega
    cases hresult : w.state.sendFrom net client (ping o w.pingNr) uuid draws with
    | none => simp [hresult] at hsend
    | some result =>
      have hlines : ∀ line ∈ w.lines, (times ++ [w.state.now])[line.pingNr]? = some line.sent := fun l hl => hold (h.lines l hl)
      cases result with
      | error state =>
        simp only [hresult] at hsend
        obtain rfl := Option.some.inj hsend
        exact ⟨fun hne => absurd rfl hne, fun k t hk => hold (h.flights k t hk), hlines, hapart, by simp⟩
      | ok state =>
        obtain ⟨kinds, hstretch⟩ := Stretches.trySend (State.trySend_of_sendFrom hresult)
        have hnow : state.now = w.state.now := hstretch.now
        have hflights : ∀ k t, (w.inFlight.insert w.pingNr w.state.now).lookup k = some t →
            (times ++ [w.state.now])[k]? = some t := fun k t hk => by
          by_cases heq : k = w.pingNr
          · rw [heq, AList.lookup_insert] at hk
            rw [heq, ← hlen, List.getElem?_concat_length, hk]
          · rw [AList.lookup_insert_ne heq] at hk
            exact hold (h.flights k t hk)
        simp only [hresult, hnow] at hsend
        split_ifs at hsend
        · obtain rfl := Option.some.inj hsend
          exact ⟨fun hne => absurd rfl hne, hflights, hlines, hapart, by simp⟩
        · obtain rfl := Option.some.inj hsend
          refine ⟨fun _ => by simp [hlen], hflights, hlines, hapart, fun deadline' hdeadline' t ht => ?_⟩
          rw [List.getLast?_append, List.getLast?_singleton, Option.some_or] at ht
          obtain rfl : w.state.now = t := Option.some.inj ht
          exact Nat.le_of_eq (Sender.sleeping.inj hdeadline')

theorem step {a : Action} (h : Timed o times w) (hstep : w.step net o server client a = some w') :
    Timed o (times ++ (a.pingTime w).toList) w' := by
  cases a with
  | network a =>
    rw [World.step] at hstep
    split_ifs at hstep
    obtain ⟨s', -, rfl⟩ := Option.map_eq_some_iff.1 hstep
    rw [show Action.pingTime w (.network a) = none from rfl, Option.toList_none, List.append_nil]
    exact { h with }
  | server draws =>
    rw [show Action.pingTime w (.server draws) = none from rfl, Option.toList_none, List.append_nil]
    rw [World.step] at hstep
    split_ifs at hstep
    simp only [World.serve, Option.bind_eq_bind, Option.bind_eq_some_iff] at hstep
    obtain ⟨r, -, result, -, hstep⟩ := hstep
    cases result with
    | error state =>
      obtain rfl := Option.some.inj hstep
      exact { h with }
    | ok state =>
      obtain rfl := Option.some.inj hstep
      exact { h with }
  | sender uuid draws => exact h.send hstep
  | deadline k =>
    rw [show Action.pingTime w (.deadline k) = none from rfl, Option.toList_none, List.append_nil]
    rw [World.step, World.passDeadline] at hstep
    split at hstep
    · simp at hstep
    · split_ifs at hstep
      dsimp only at hstep
      split at hstep
      · obtain rfl := Option.some.inj hstep
        exact { h with }
      · rename_i hlookup
        obtain rfl := Option.some.inj hstep
        exact h.remove hlookup ⟨rfl, rfl⟩ _ _
  | receiver =>
    rw [show Action.pingTime w .receiver = none from rfl, Option.toList_none, List.append_nil]
    rw [World.step, World.receiveEchoes] at hstep
    obtain ⟨r, -, hstep⟩ := Option.bind_eq_some_iff.1 hstep
    exact receiveEchoes (w := { w with state := r.state, clientSlots := r.slots }) { h with } hstep

theorem run {as : List Action} (h : Timed o times w) (hrun : (machine net o server client).run w as = some w') :
    Timed o (times ++ pingTimes net o server client w as) w' := by
  induction as generalizing w times with
  | nil =>
    obtain rfl := Option.some.inj hrun
    rwa [pingTimes, List.append_nil]
  | cons a as ih =>
    obtain ⟨w₁, hstep, hrest⟩ := Machine.run_cons_eq_some.1 hrun
    have hstep : w.step net o server client a = some w₁ := hstep
    have htimes : times ++ pingTimes net o server client w (a :: as) =
        times ++ (a.pingTime w).toList ++ pingTimes net o server client w₁ as := by
      rw [pingTimes, hstep, List.append_assoc]
      rfl
    rw [htimes]
    exact ih (h.step hstep) hrest

end Timed

/-! ### Runs -/

section
variable {networkEvents : NetworkEvents} {s₀ : State} {simulationStart started now : Nat} {disableTimeWarping : Bool}
  {as : List Action}

theorem PingInv.start
    (hinit : InMemoryNetwork.initializeNetwork spec networkEvents simulationStart started now disableTimeWarping = .ok (net, s₀))
    (hnow : simulationStart ≤ now) : PingInv net o server client [] 0 (start s₀) where
  traced := Traced.initialized hinit hnow
  exchange := ⟨by simp, by simp⟩
  numbers := Nat.zero_le _
  sender _ := ⟨rfl, Nat.zero_le _⟩
  records :=
    { flights := fun k t hk => by simp [Ping.start] at hk
      once := by simp [Ping.start]
      tracked := fun k t hk => by simp [Ping.start] at hk
      due := by simp [Ping.start]
      lines := by simp [Ping.start] }
  serverSlots := Slots.sized_new ..
  clientSlots := Slots.sized_new ..
  sockets i delivery hi := by
    have hi : s₀.sockets i = some delivery := hi
    simp [Announced.sockets_initialized hinit i] at hi

theorem Timed.start : Timed o [] (start s₀) where
  length _ := rfl
  flights k t hk := by simp [Ping.start] at hk
  lines := by simp [Ping.start]
  apart := .nil
  sleeping := by simp

theorem pingInv_of_run
    (hinit : InMemoryNetwork.initializeNetwork spec networkEvents simulationStart started now disableTimeWarping = .ok (net, s₀))
    (hnow : simulationStart ≤ now) (hosts : Hosts net spec o server client)
    (hrun : (machine net o server client).run (start s₀) as = some w) :
    ∃ sends n, PingInv net o server client sends n w :=
  Machine.run_invariant (M := machine net o server client) (I := fun w => ∃ sends n, PingInv net o server client sends n w)
    (fun _ _ _ ⟨_, _, h⟩ hstep => h.step hosts hstep) ⟨[], 0, .start hinit hnow⟩ hrun

/-- No task runs into a failing assertion. The server and the sender panic in a send only, and only where the task of their host
has ended (or the sender, when it has used up the numbers of pings). -/
theorem never_fails_of_run
    (hinit : InMemoryNetwork.initializeNetwork spec networkEvents simulationStart started now disableTimeWarping = .ok (net, s₀))
    (hnow : simulationStart ≤ now) (hserver : net.host o.serverIp = some server) (hclient : net.host o.clientIp = some client)
    (hne : o.serverIp ≠ o.clientIp) (hrun : (machine net o server client).run (start s₀) as = some w) :
    (w.serverPanicked = false → ∀ draws, ∃ w', w.step net o server client (.server draws) = some w' ∧
        (w'.serverPanicked → w.state.nodeTasks server ≠ .running)) ∧
      (∃ w', w.step net o server client .receiver = some w') ∧
      ∀ deadline, w.sender = .sleeping deadline → deadline ≤ w.state.now → ∀ uuid draws,
        ∃ w', w.step net o server client (.sender uuid draws) = some w' ∧
          (w'.sender = .panicked → w.state.nodeTasks client ≠ .running ∨ w.pingNr = u64Max) := by
  have hosts : Hosts net spec o server client := ⟨.of_host hinit hserver hclient, hne⟩
  obtain ⟨sends, n, h⟩ := pingInv_of_run hinit hnow hosts hrun
  refine ⟨fun hrunning draws => ?_, ?_, fun deadline hsender hdue uuid draws => ?_⟩
  · obtain ⟨w', -, hw', -, -, hpanicked⟩ := h.serve hosts draws
    exact ⟨w', by rw [World.step, hrunning]; exact hw', hpanicked hrunning⟩
  · obtain ⟨w', hw', -⟩ := h.receiveEchoes hosts
    exact ⟨w', hw'⟩
  · exact exists_send hosts.client hsender hdue uuid draws

/-- The pings, sent at least an interval apart, are in flight, lost or received, each of these once; those in flight have a
task that tracks them. -/
theorem accounted_of_run
    (hinit : InMemoryNetwork.initializeNetwork spec networkEvents simulationStart started now disableTimeWarping = .ok (net, s₀))
    (hnow : simulationStart ≤ now) (hserver : net.host o.serverIp = some server) (hclient : net.host o.clientIp = some client)
    (hne : o.serverIp ≠ o.clientIp) (hrun : (machine net o server client).run (start s₀) as = some w) :
    (w.inFlight.keys ++ w.lost ++ w.lines.filterMap Line.received?).Perm (List.range w.pingNr) ∧
      (∀ k t, w.inFlight.lookup k = some t → (pingTimes net o server client (start s₀) as)[k]? = some t ∧
        ((k, t + o.deadline) ∈ w.deadlines ∨ k = u64Max)) ∧
      (pingTimes net o server client (start s₀) as).IsChain fun t t' => t + o.interval ≤ t' := by
  obtain ⟨sends, n, h⟩ := pingInv_of_run hinit hnow (⟨.of_host hinit hserver hclient, hne⟩) hrun
  have htimed := Timed.start.run hrun
  exact ⟨h.records.once, fun k t hk => ⟨htimed.flights k t hk, h.records.tracked k t hk⟩, htimed.apart⟩

/-- What the lines say is so: the pings were sent at these instants, the lost ones had not returned until their deadlines, and
the received ones had the time to get to the server and back. -/
theorem lines_of_run
    (hinit : InMemoryNetwork.initializeNetwork spec networkEvents simulationStart started now disableTimeWarping = .ok (net, s₀))
    (hnow : simulationStart ≤ now) (hserver : net.host o.serverIp = some server) (hclient : net.host o.clientIp = some client)
    (hne : o.serverIp ≠ o.clientIp) (hrun : (machine net o server client).run (start s₀) as = some w) :
    (∀ k sent t, .received k sent t ∈ w.lines → (pingTimes net o server client (start s₀) as)[k]? = some sent ∧
      ∃ D₁ D₂, Travels net.Linked client D₁ server ∧ Travels net.Linked server D₂ client ∧ sent + D₁ + D₂ ≤ t) ∧
      ∀ k sent t, .lost k sent t ∈ w.lines → (pingTimes net o server client (start s₀) as)[k]? = some sent ∧
        sent + o.deadline ≤ t := by
  obtain ⟨sends, n, h⟩ := pingInv_of_run hinit hnow (⟨.of_host hinit hserver hclient, hne⟩) hrun
  have htimed := Timed.start.run hrun
  exact ⟨fun k sent t hline => ⟨htimed.lines _ hline, (h.records.lines _ hline).2⟩,
    fun k sent t hline => ⟨htimed.lines _ hline, (h.records.lines _ hline).2⟩⟩

end

/-! ### Two pings -/

/-- A server on `B` and a client on `A`. -/
def pings : Options :=
  { serverIp := .v4 HostPair.b
    clientIp := .v4 HostPair.a₁
    deadline := Duration.fromMillis 20
    interval := Duration.fromMillis 10 }

/-- The first ping comes back after 10 ms, the second one stays in the queue of its link. -/
def twoPings : List Action :=
  [.sender 0 (HostPair.draws 0), .network (.nodeTask 0 HostPair.rolls), .network (.linkTask 0 0),
    .network (.advance (Duration.fromMillis 5)), .network (HostPair.forward 0),
    .server fun _ => (1, HostPair.draws 0), .network (.nodeTask 1 HostPair.rolls), .network (.linkTask 1 0),
    .network (.advance (Duration.fromMillis 5)), .network (HostPair.forward 1), .receiver,
    .sender 2 (HostPair.draws 0), .network (.advance (Duration.fromMillis 20)), .deadline 0, .deadline 0]

theorem exists_of_simulatePings (as : List Action) {P : NodeIx → World → Bool}
    (h : simulateHosts hostLoop pings.serverIp pings.clientIp fun net s server client =>
      ((machine net pings server client).run (start s) as).any (P server)) :
    ∃ net s₀ server client w, InMemoryNetwork.initializeNetwork hostLoop (.new [] hostLoop.nodes hostLoop.links) 0 0 0 false =
      .ok (net, s₀) ∧ net.host pings.serverIp = some server ∧ net.host pings.clientIp = some client ∧
      (machine net pings server client).run (start s₀) as = some w ∧ P server w = true := by
  obtain ⟨net, s₀, server, client, hinit, hserver, hclient, h⟩ := exists_of_simulateHosts h
  obtain ⟨w, hrun, hw⟩ := (Option.any_eq_true ..).1 h
  exact ⟨net, s₀, server, client, w, hinit, hserver, hclient, hrun, hw⟩

theorem never_fails_hostLoop : ∃ net s₀ server client w,
    (machine net pings server client).run (start s₀) (twoPings.take 5) = some w ∧
    (w.state.nodes server).inbound.queue.length = 1 ∧
    (w.serverPanicked = false → ∀ draws, ∃ w', w.step net pings server client (.server draws) = some w' ∧
        (w'.serverPanicked → w.state.nodeTasks server ≠ .running)) ∧
      (∃ w', w.step net pings server client .receiver = some w') ∧
      ∀ deadline, w.sender = .sleeping deadline → deadline ≤ w.state.now → ∀ uuid draws,
        ∃ w', w.step net pings server client (.sender uuid draws) = some w' ∧
          (w'.sender = .panicked → w.state.nodeTasks client ≠ .running ∨ w.pingNr = u64Max) := by
  obtain ⟨net, s₀, server, client, w, hinit, hserver, hclient, hrun, hw⟩ := exists_of_simulatePings (twoPings.take 5)
    (P := fun server w => decide ((w.state.nodes server).inbound.queue.length = 1)) (by decide +kernel)
  exact ⟨net, s₀, server, client, w, hrun, of_decide_eq_true hw,
    never_fails_of_run hinit (Nat.le_refl _) hserver hclient (by decide) hrun⟩

theorem accounted_hostLoop : ∃ net s₀ server client w,
    (machine net pings server client).run (start s₀) twoPings = some w ∧ w.pingNr = 2 ∧
    (w.inFlight.keys ++ w.lost ++ w.lines.filterMap Line.received?).Perm (List.range w.pingNr) ∧
      (∀ k t, w.inFlight.lookup k = some t → (pingTimes net pings server client (start s₀) twoPings)[k]? = some t ∧
        ((k, t + pings.deadline) ∈ w.deadlines ∨ k = u64Max)) ∧
      (pingTimes net pings server client (start s₀) twoPings).IsChain fun t t' => t + pings.interval ≤ t' := by
  obtain ⟨net, s₀, server, client, w, hinit, hserver, hclient, hrun, hw⟩ := exists_of_simulatePings twoPings
    (P := fun _ w => decide (w.pingNr = 2)) (by decide +kernel)
  exact ⟨net, s₀, server, client, w, hrun, of_decide_eq_true hw,
    accounted_of_run hinit (Nat.le_refl _) hserver hclient (by decide) hrun⟩

theorem lines_hostLoop : ∃ net s₀ server client w,
    (machine net pings server client).run (start s₀) twoPings = some w ∧
    w.lines = [.received 0 0 (Duration.fromMillis 10), .lost 1 (Duration.fromMillis 10) (Duration.fromMillis 30)] ∧
    (∀ k sent t, .received k sent t ∈ w.lines → (pingTimes net pings server client (start s₀) twoPings)[k]? = some sent ∧
      ∃ D₁ D₂, Travels net.Linked client D₁ server ∧ Travels net.Linked server D₂ client ∧ sent + D₁ + D₂ ≤ t) ∧
      ∀ k sent t, .lost k sent t ∈ w.lines → (pingTimes net pings server client (start s₀) twoPings)[k]? = some sent ∧
        sent + pings.deadline ≤ t := by
  obtain ⟨net, s₀, server, client, w, hinit, hserver, hclient, hrun, hw⟩ := exists_of_simulatePings twoPings
    (P := fun _ w => decide (w.lines = [.received 0 0 (Duration.fromMillis 10),
      .lost 1 (Duration.fromMillis 10) (Duration.fromMillis 30)])) (by decide +kernel)
  exact ⟨net, s₀, server, client, w, hrun, of_decide_eq_true hw,
    lines_of_run hinit (Nat.le_refl _) hserver hclient (by decide) hrun⟩

end Ping
end QuicWorkbench
