import Mathlib.Logic.Relation
import Mathlib.Logic.Function.Basic
import Mathlib.Data.List.Basic
import Mathlib.Order.Basic

/-!
# Flows through queues

Nodes and links are queues, first in, first out. Packets are created at nodes, wait at nodes to go on, and travel on
links to other nodes; here a packet is its flow and its number, which grows with every packet created. If every flow
has at most one link at each node, and does not come to a node twice, then no packet overtakes another one of its flow:
they come to each node in the order in which they were created (`Orderly.steps`).
-/

/-- The node at which each flow starts, the link that it takes at each node, and the node at the end of each link. -/
structure Routes (N L F : Type*) where
  source : F → N
  link : F → N → Option L
  target : L → Option N

namespace Routes
variable {N L F : Type*} {R : Routes N L F} {f : F} {i i' t : N} {j j' : L}

/-- The flow goes from one node to the other over a link. -/
def Hop (R : Routes N L F) (f : F) (i i' : N) : Prop := ∃ j, R.link f i = some j ∧ R.target j = some i'

/-- The flow comes to the node. -/
def Visits (R : Routes N L F) (f : F) (i : N) : Prop := Relation.ReflTransGen (R.Hop f) (R.source f) i

/-- The flow comes to the node, and takes the link there. -/
def Takes (R : Routes N L F) (f : F) (i : N) (j : L) : Prop := R.Visits f i ∧ R.link f i = some j

/-- The flow does not come back to a node. -/
def NoCircle (R : Routes N L F) (f : F) : Prop := ∀ i, R.Visits f i → ¬ Relation.TransGen (R.Hop f) i i

theorem hop_rightUnique (R : Routes N L F) (f : F) : Relator.RightUnique (R.Hop f) := by
  rintro i t t' ⟨j, hj, ht⟩ ⟨j', hj', ht'⟩
  obtain rfl := Option.some.inj (hj.symm.trans hj')
  exact Option.some.inj (ht.symm.trans ht')

theorem Takes.hop (h : R.Takes f i j) (ht : R.target j = some t) : R.Hop f i t := ⟨j, h.2, ht⟩

theorem Takes.visits (h : R.Takes f i j) (ht : R.target j = some t) : R.Visits f t := h.1.tail (h.hop ht)

/-- The flow comes to no node from two nodes: the later of them on its route would be behind the node. -/
theorem NoCircle.eq_of_hop (h : R.NoCircle f) (hi : R.Visits f i) (hi' : R.Visits f i') (ht : R.Hop f i t)
    (ht' : R.Hop f i' t) : i = i' := by
  have hbehind : ∀ {i i' : N}, R.Visits f i → R.Hop f i t → R.Hop f i' t → Relation.ReflTransGen (R.Hop f) i i' → i = i' := by
    intro i i' hi ht ht' hpath
    rcases hpath.cases_head with heq | ⟨t', hfirst, hrest⟩
    · exact heq
    · obtain rfl := R.hop_rightUnique f ht hfirst
      exact absurd (Relation.TransGen.tail' hrest ht') (h _ (hi.tail ht))
  rcases Relation.ReflTransGen.total_of_right_unique (R.hop_rightUnique f) hi hi' with hpath | hpath
  · exact hbehind hi ht ht' hpath
  · exact (hbehind hi' ht' ht hpath).symm

theorem NoCircle.link_eq (h : R.NoCircle f) (hi : R.Takes f i j) (hi' : R.Takes f i' j') (ht : R.target j = some t)
    (ht' : R.target j' = some t) : i = i' ∧ j = j' := by
  obtain rfl := h.eq_of_hop hi.1 hi'.1 (hi.hop ht) (hi'.hop ht')
  exact ⟨rfl, Option.some.inj (hi.2.symm.trans hi'.2)⟩

/-- The flow does not come back to its source. -/
theorem NoCircle.target_ne_source (h : R.NoCircle f) (hi : R.Takes f i j) : R.target j ≠ some (R.source f) := by
  intro ht
  exact h _ (hi.visits ht) (Relation.TransGen.tail' hi.1 (hi.hop ht))

/-- The flow gets to the end of its route from the node over `n` links at most. -/
def ends (R : Routes N L F) (f : F) : Nat → N → Bool
  | 0, _ => false
  | n + 1, i =>
    match (R.link f i).bind R.target with
    | none => true
    | some t => R.ends f n t

/-- A route that ends has no circle. -/
theorem noCircle_of_ends {n : Nat} (h : R.ends f n (R.source f)) : R.NoCircle f := by
  have hbehind : ∀ n i, R.ends f n i → ∀ i', Relation.ReflTransGen (R.Hop f) i i' → ¬ Relation.TransGen (R.Hop f) i' i' := by
    intro n
    induction n with
    | zero => simp [ends]
    | succ n ih =>
      intro i hends i' hpath hcircle
      have hnext : ∀ t, R.Hop f i t → R.ends f n t := by
        rintro t ⟨j, hj, ht⟩
        simpa [ends, hj, ht] using hends
      rcases hpath.cases_head with rfl | ⟨t, hhop, hrest⟩
      · obtain ⟨t, hhop, hback⟩ := Relation.TransGen.head'_iff.1 hcircle
        exact ih t (hnext t hhop) t .refl (Relation.TransGen.tail' hback hhop)
      · exact ih t (hnext t hhop) i' hrest hcircle
  exact hbehind n _ h

end Routes

/-- The packets that have come to each node, oldest first, those that wait at each node, and those on each link. -/
structure Pipes (N L F K : Type*) where
  arrived : N → List (F × K)
  waiting : N → List (F × K)
  onLink : L → List (F × K)

namespace Pipes
variable {N L F K : Type*}

def empty : Pipes N L F K := ⟨fun _ => [], fun _ => [], fun _ => []⟩

/-- What has come to the node `t`, is on its way there on the link `j`, or waits at the node `i` for the link. -/
def pipe (p : Pipes N L F K) (i : N) (j : L) (t : N) : List (F × K) := p.arrived t ++ p.onLink j ++ p.waiting i

/-- The packet comes to the node. -/
def come [DecidableEq N] (p : Pipes N L F K) (i : N) (x : F × K) : Pipes N L F K :=
  { p with arrived := Function.update p.arrived i (p.arrived i ++ [x]) }

def setWaiting [DecidableEq N] (p : Pipes N L F K) (i : N) (xs : List (F × K)) : Pipes N L F K :=
  { p with waiting := Function.update p.waiting i xs }

def setOnLink [DecidableEq L] (p : Pipes N L F K) (j : L) (xs : List (F × K)) : Pipes N L F K :=
  { p with onLink := Function.update p.onLink j xs }

theorem mem_come [DecidableEq N] {p : Pipes N L F K} {i i' : N} {x y : F × K} :
    y ∈ (p.come i x).arrived i' ↔ y ∈ p.arrived i' ∨ i' = i ∧ y = x := by
  by_cases hi : i' = i
  · subst hi
    simp [come]
  · simp [come, hi]

variable [Preorder K]

/-- The packets of the flow are in the order of their numbers. -/
def InOrder (f : F) (xs : List (F × K)) : Prop := xs.Pairwise fun x y => x.1 = f → y.1 = f → x.2 ≤ y.2

section
variable {f : F} {x : F × K} {xs ys : List (F × K)}

theorem InOrder.sublist (h : InOrder f ys) (hsub : xs.Sublist ys) : InOrder f xs := List.Pairwise.sublist hsub h

/-- Packets of other flows do not matter. -/
theorem InOrder.insert_of_ne (h : InOrder f (xs ++ ys)) (hx : x.1 ≠ f) (n : Nat) :
    InOrder f (xs ++ List.replicate n x ++ ys) := by
  rw [InOrder, List.pairwise_append] at h
  rw [InOrder, List.pairwise_append, List.pairwise_append]
  refine ⟨⟨h.1, ?_, ?_⟩, h.2.1, ?_⟩
  · exact List.pairwise_replicate.2 (.inr fun hf _ => absurd hf hx)
  · intro a _ b hb _ hf
    rw [List.eq_of_mem_replicate hb] at hf
    exact absurd hf hx
  · intro a ha b hb
    rcases List.mem_append.1 ha with ha | ha
    · exact h.2.2 a ha b hb
    · intro hf
      rw [List.eq_of_mem_replicate ha] at hf
      exact absurd hf hx

/-- The packet at the front of a queue may be repeated. -/
theorem InOrder.replicate (h : InOrder f (xs ++ x :: ys)) (n : Nat) : InOrder f (xs ++ List.replicate n x ++ ys) := by
  rw [InOrder, List.pairwise_append, List.pairwise_cons] at h
  obtain ⟨hxs, ⟨hx, hys⟩, hbefore⟩ := h
  rw [InOrder, List.pairwise_append, List.pairwise_append]
  refine ⟨⟨hxs, List.pairwise_replicate.2 (.inr fun _ _ => le_refl _), ?_⟩, hys, ?_⟩
  · intro a ha b hb
    rw [List.eq_of_mem_replicate hb]
    exact hbefore a ha x (List.mem_cons_self ..)
  · intro a ha b hb
    rcases List.mem_append.1 ha with ha | ha
    · exact hbefore a ha b (List.mem_cons_of_mem _ hb)
    · rw [List.eq_of_mem_replicate ha]
      exact hx b hb

theorem InOrder.snoc (h : InOrder f xs) (hlast : x.1 = f → ∀ y ∈ xs, y.1 = f → y.2 ≤ x.2) : InOrder f (xs ++ [x]) := by
  rw [InOrder, List.pairwise_append]
  refine ⟨h, List.pairwise_singleton .., fun y hy x' hx' hyf hxf => ?_⟩
  obtain rfl := List.mem_singleton.1 hx'
  exact hlast hxf y hy hyf

/-- The last packet has the highest number. -/
theorem InOrder.le_last (h : InOrder f (xs ++ [x])) {y : F × K} (hy : y ∈ xs ++ [x]) (hyf : y.1 = f) (hxf : x.1 = f) :
    y.2 ≤ x.2 := by
  rcases List.mem_append.1 hy with hy | hy
  · exact (List.pairwise_append.1 h).2.2 y hy x (List.mem_singleton_self x) hyf hxf
  · rw [List.mem_singleton.1 hy]

end

/-! ### The invariant -/

/-- Along every link, packets of a flow that takes it are in order, from its end back to the node that it starts at. -/
structure Orderly (R : Routes N L F) (C : F × K → Prop) (p : Pipes N L F K) : Prop where
  created : ∀ i, ∀ x ∈ p.arrived i, C x
  arrived : ∀ i, ∀ x ∈ p.arrived i, R.Visits x.1 i
  waiting : ∀ i, ∀ x ∈ p.waiting i, x ∈ p.arrived i
  onLink : ∀ j, ∀ x ∈ p.onLink j, ∃ i, R.Takes x.1 i j ∧ x ∈ p.arrived i
  /-- What has come to the end of a link has come to the node that the flow takes the link from. -/
  passed : ∀ f i j t, R.Takes f i j → R.target j = some t → ∀ x ∈ p.arrived t, x.1 = f → x ∈ p.arrived i
  inOrder : ∀ f i, InOrder f (p.arrived i)
  pipes : ∀ f i j t, R.Takes f i j → R.target j = some t → InOrder f (p.pipe i j t)

namespace Orderly
variable {R : Routes N L F} {C C' : F × K → Prop} {p p' : Pipes N L F K} {f : F} {i t : N} {j : L} {x : F × K}

theorem empty (R : Routes N L F) (C : F × K → Prop) : Orderly R C (Pipes.empty : Pipes N L F K) := by
  constructor <;> simp [Pipes.empty, InOrder, pipe]

/-- A packet on a link that the flow takes comes from the node that the flow takes it from. -/
theorem mem_arrived (h : Orderly R C p) (hC : ∀ x, C x → R.NoCircle x.1) (hf : R.Takes f i j)
    (ht : R.target j = some t) (hx : x ∈ p.pipe i j t) (hxf : x.1 = f) : x ∈ p.arrived i := by
  rcases List.mem_append.1 hx with hx | hx
  · rcases List.mem_append.1 hx with hx | hx
    · exact h.passed f i j t hf ht x hx hxf
    · obtain ⟨i', htakes, harrived⟩ := h.onLink j x hx
      obtain ⟨rfl, -⟩ := (hC x (h.created i' x harrived)).link_eq htakes (hxf ▸ hf) ht ht
      exact harrived
  · exact h.waiting i x hx

/-- Packets only leave queues. -/
theorem drop (h : Orderly R C p) (harrived : p'.arrived = p.arrived) (hwaiting : ∀ i, (p'.waiting i).Sublist (p.waiting i))
    (honLink : ∀ j, (p'.onLink j).Sublist (p.onLink j)) : Orderly R C p' where
  created := harrived ▸ h.created
  arrived := harrived ▸ h.arrived
  waiting i x hx := harrived ▸ h.waiting i x ((hwaiting i).subset hx)
  onLink j x hx := harrived ▸ h.onLink j x ((honLink j).subset hx)
  passed := harrived ▸ h.passed
  inOrder := harrived ▸ h.inOrder
  pipes f i j t hf ht := by
    refine (h.pipes f i j t hf ht).sublist ?_
    rw [pipe, pipe, harrived]
    exact ((List.Sublist.refl _).append (honLink j)).append (hwaiting i)

theorem mono (h : Orderly R C p) (hCC' : ∀ x, C x → C' x) : Orderly R C' p :=
  { h with created := fun i x hx => hCC' x (h.created i x hx) }

end Orderly

/-! ### What queues do -/

variable [DecidableEq N] [DecidableEq L]

/-- What a queue does; `C` says which packets may be created. -/
inductive Step (R : Routes N L F) (C : F × K → Prop) (p : Pipes N L F K) : Pipes N L F K → Prop
  /-- A packet is created at the source of its flow, with a number above those of all packets before. -/
  | create (x : F × K) (hx : C x) (hnew : ∀ i, ∀ y ∈ p.arrived i, y.2 < x.2) : Step R C p (p.come (R.source x.1) x)
  | arrive (i : N) (j : L) (x : F × K) (rest : List (F × K)) (htarget : R.target j = some i)
      (hnext : p.onLink j = x :: rest) : Step R C p ((p.setOnLink j rest).come i x)
  /-- The packet that came last is put at the end of the node's queue; it may be put there more than once. -/
  | wait (i : N) (x : F × K) (before : List (F × K)) (hlast : p.arrived i = before ++ [x]) :
      Step R C p (p.setWaiting i (p.waiting i ++ [x]))
  /-- The packet goes on, copied or not. -/
  | go (i : N) (j : L) (x : F × K) (rest : List (F × K)) (n : Nat) (hnext : p.waiting i = x :: rest)
      (hlink : R.link x.1 i = some j) :
      Step R C p ((p.setWaiting i rest).setOnLink j (p.onLink j ++ List.replicate n x))
  /-- Packets are dropped, wherever they are. -/
  | drop (p' : Pipes N L F K) (harrived : p'.arrived = p.arrived) (hwaiting : ∀ i, (p'.waiting i).Sublist (p.waiting i))
      (honLink : ∀ j, (p'.onLink j).Sublist (p.onLink j)) : Step R C p p'

abbrev Steps (R : Routes N L F) (C : F × K → Prop) : Pipes N L F K → Pipes N L F K → Prop :=
  Relation.ReflTransGen (Step R C)

namespace Orderly
variable {R : Routes N L F} {C : F × K → Prop} {p p' : Pipes N L F K} {i : N} {j : L} {x : F × K} {rest : List (F × K)}

omit [DecidableEq L] in
/-- A packet is created. Its flow does not come to its source again, so nothing on its way there is of the flow. -/
theorem create (h : Orderly R C p) (hC : ∀ x, C x → R.NoCircle x.1) (hx : C x) (hnew : ∀ i, ∀ y ∈ p.arrived i, y.2 < x.2) :
    Orderly R C (p.come (R.source x.1) x) where
  created i y hy := by
    rcases mem_come.1 hy with hy | ⟨-, rfl⟩
    · exact h.created i y hy
    · exact hx
  arrived i y hy := by
    rcases mem_come.1 hy with hy | ⟨rfl, rfl⟩
    · exact h.arrived i y hy
    · exact .refl
  waiting i y hy := mem_come.2 (.inl (h.waiting i y hy))
  onLink j y hy := by
    obtain ⟨i, htakes, harrived⟩ := h.onLink j y hy
    exact ⟨i, htakes, mem_come.2 (.inl harrived)⟩
  passed f i j t hf ht y hy hyf := by
    rcases mem_come.1 hy with hy | ⟨rfl, rfl⟩
    · exact mem_come.2 (.inl (h.passed f i j t hf ht y hy hyf))
    · exact absurd ht ((hC _ hx).target_ne_source (hyf ▸ hf))
  inOrder f i := by
    by_cases hi : i = R.source x.1
    · subst hi
      simp only [come, Function.update_self]
      exact (h.inOrder f _).snoc fun _ y hy _ => (hnew _ y hy).le
    · simpa [come, hi] using h.inOrder f i
  pipes f i j t hf ht := by
    have hold := h.pipes f i j t hf ht
    by_cases hs : t = R.source x.1
    · have hxf : x.1 ≠ f := by
        rintro rfl
        exact (hC _ hx).target_ne_source hf (hs ▸ ht)
      subst hs
      rw [pipe, List.append_assoc] at hold
      have hinsert := hold.insert_of_ne hxf 1
      simpa [pipe, come] using hinsert
    · simpa [pipe, come, hs] using hold

/-- The packet at the front of a link comes to the node at its end. What is of its flow there has come over the link. -/
theorem arrive (h : Orderly R C p) (hC : ∀ x, C x → R.NoCircle x.1) (htarget : R.target j = some i) (hnext : p.onLink j = x :: rest) :
    Orderly R C ((p.setOnLink j rest).come i x) := by
  obtain ⟨i₀, htakes, hmem⟩ := h.onLink j x (by simp [hnext])
  have hroute := hC x (h.created i₀ x hmem)
  have honLink : ∀ j', ∀ y ∈ (p.setOnLink j rest).onLink j', y ∈ p.onLink j' := by
    intro j' y hy
    by_cases hj : j' = j
    · subst hj
      have hy : y ∈ rest := by simpa [setOnLink] using hy
      exact hnext ▸ List.mem_cons_of_mem _ hy
    · simpa [setOnLink, hj] using hy
  constructor
  case created =>
    intro i' y hy
    rcases mem_come.1 hy with hy | ⟨-, rfl⟩
    · exact h.created i' y hy
    · exact h.created i₀ y hmem
  case arrived =>
    intro i' y hy
    rcases mem_come.1 hy with hy | ⟨rfl, rfl⟩
    · exact h.arrived i' y hy
    · exact htakes.visits htarget
  case waiting => exact fun i' y hy => mem_come.2 (.inl (h.waiting i' y hy))
  case onLink =>
    intro j' y hy
    obtain ⟨i', htakes', harrived⟩ := h.onLink j' y (honLink j' y hy)
    exact ⟨i', htakes', mem_come.2 (.inl harrived)⟩
  case passed =>
    intro f i' j' t hf ht y hy hyf
    rcases mem_come.1 hy with hy | ⟨rfl, rfl⟩
    · exact mem_come.2 (.inl (h.passed f i' j' t hf ht y hy hyf))
    · obtain ⟨rfl, -⟩ := hroute.link_eq htakes (hyf ▸ hf) htarget ht
      exact mem_come.2 (.inl hmem)
  case inOrder =>
    intro f i'
    by_cases hi : i' = i
    · subst hi
      simp only [come, Function.update_self]
      refine (h.inOrder f _).snoc fun hxf y hy hyf => ?_
      subst hxf
      -- both are in the pipe over the link
      have hpipe := h.pipes _ i₀ j i' htakes htarget
      rw [pipe, hnext, InOrder, List.append_assoc, List.pairwise_append] at hpipe
      exact hpipe.2.2 y hy x (by simp) hyf rfl
    · simpa [come, setOnLink, hi] using h.inOrder f i'
  case pipes =>
    intro f i' j' t hf ht
    have hold := h.pipes f i' j' t hf ht
    by_cases hj : j' = j
    · subst hj
      obtain rfl := Option.some.inj (ht.symm.trans htarget)
      simpa [pipe, come, setOnLink, hnext] using hold
    · by_cases hi : t = i
      · subst hi
        have hxf : x.1 ≠ f := by
          rintro rfl
          exact hj (hroute.link_eq htakes hf htarget ht).2.symm
        rw [pipe, List.append_assoc] at hold
        have hinsert := hold.insert_of_ne hxf 1
        simpa [pipe, come, setOnLink, hj] using hinsert
      · simpa [pipe, come, setOnLink, hj, hi] using hold

omit [DecidableEq L] in
/-- The packet that came last waits to go on. -/
theorem wait (h : Orderly R C p) (hC : ∀ x, C x → R.NoCircle x.1) {before : List (F × K)} (hlast : p.arrived i = before ++ [x]) :
    Orderly R C (p.setWaiting i (p.waiting i ++ [x])) where
  created := h.created
  arrived := h.arrived
  waiting i' y hy := by
    by_cases hi : i' = i
    · subst hi
      have hy : y ∈ p.waiting i' ∨ y = x := by simpa [setWaiting] using hy
      rcases hy with hy | rfl
      · exact h.waiting i' y hy
      · show y ∈ p.arrived i'
        simp [hlast]
    · exact h.waiting i' y (by simpa [setWaiting, hi] using hy)
  onLink := h.onLink
  passed := h.passed
  inOrder := h.inOrder
  pipes f i' j t hf ht := by
    have hold := h.pipes f i' j t hf ht
    by_cases hi : i' = i
    · subst hi
      have hpipe : (p.setWaiting i' (p.waiting i' ++ [x])).pipe i' j t = p.pipe i' j t ++ [x] := by
        simp [pipe, setWaiting]
      rw [hpipe]
      refine hold.snoc fun hxf y hy hyf => ?_
      exact (hlast ▸ h.inOrder f i').le_last (hlast ▸ h.mem_arrived hC hf ht hy hyf) hyf hxf
    · simpa [pipe, setWaiting, hi] using hold

/-- The packet at the front of a node's queue goes on. Nothing of its flow takes the link from another node. -/
theorem go (h : Orderly R C p) (hC : ∀ x, C x → R.NoCircle x.1) (n : Nat) (hnext : p.waiting i = x :: rest)
    (hlink : R.link x.1 i = some j) :
    Orderly R C ((p.setWaiting i rest).setOnLink j (p.onLink j ++ List.replicate n x)) := by
  have hmem : x ∈ p.arrived i := h.waiting i x (by simp [hnext])
  have htakes : R.Takes x.1 i j := ⟨h.arrived i x hmem, hlink⟩
  constructor
  case created => exact h.created
  case arrived => exact h.arrived
  case waiting =>
    intro i' y hy
    by_cases hi : i' = i
    · subst hi
      have hy : y ∈ rest := by simpa [setWaiting, setOnLink] using hy
      exact h.waiting i' y (hnext ▸ List.mem_cons_of_mem _ hy)
    · exact h.waiting i' y (by simpa [setWaiting, setOnLink, hi] using hy)
  case onLink =>
    intro j' y hy
    by_cases hj : j' = j
    · subst hj
      have hy : y ∈ p.onLink j' ∨ y ∈ List.replicate n x := by simpa [setOnLink] using hy
      rcases hy with hy | hy
      · exact h.onLink j' y hy
      · rw [List.eq_of_mem_replicate hy]
        exact ⟨i, htakes, hmem⟩
    · exact h.onLink j' y (by simpa [setOnLink, setWaiting, hj] using hy)
  case passed => exact h.passed
  case inOrder => exact h.inOrder
  case pipes =>
    intro f i' j' t hf ht
    have hold := h.pipes f i' j' t hf ht
    by_cases hj : j' = j
    · subst hj
      by_cases hi : i' = i
      · subst hi
        rw [pipe, hnext] at hold
        simpa [pipe, setOnLink, setWaiting] using hold.replicate n
      · have hxf : x.1 ≠ f := by
          rintro rfl
          exact hi ((hC x (h.created i x hmem)).link_eq htakes hf ht ht).1.symm
        have hinsert := hold.insert_of_ne hxf n
        simpa [pipe, setOnLink, setWaiting, hi] using hinsert
    · by_cases hi : i' = i
      · subst hi
        refine hold.sublist ?_
        have hsub : rest.Sublist (p.waiting i') := hnext ▸ List.sublist_cons_self ..
        simpa [pipe, setOnLink, setWaiting, hj] using hsub
      · simpa [pipe, setOnLink, setWaiting, hj, hi] using hold

theorem step (h : Orderly R C p) (hC : ∀ x, C x → R.NoCircle x.1) (hstep : Step R C p p') : Orderly R C p' := by
  cases hstep with
  | create x hx hnew => exact h.create hC hx hnew
  | arrive i j x rest htarget hnext => exact h.arrive hC htarget hnext
  | wait i x before hlast => exact h.wait hC hlast
  | go i j x rest n hnext hlink => exact h.go hC n hnext hlink
  | drop p' harrived hwaiting honLink => exact h.drop harrived hwaiting honLink

/-- No packet overtakes another one of its flow. -/
theorem steps (h : Orderly R C p) (hC : ∀ x, C x → R.NoCircle x.1) (hsteps : Steps R C p p') : Orderly R C p' := by
  induction hsteps with
  | refl => exact h
  | tail _ hstep ih => exact ih.step hC hstep

end Orderly

end Pipes
