import Mathlib.Algebra.Group.Defs
import Mathlib.Data.List.Chain

/-!
# Travelling along edges that take time

`E u w v` says that an edge leads from `u` to `v` and takes `w`. `Travels E u D v` chains edges and adds up what they
take. A list of stops, each with the time at which it is reached, is a `Timetable` of `E` if every stop can be reached
from the one before in the time between them.
-/

/-- From `u` one gets to `v` along edges that take `D` in total. -/
inductive Travels {V M : Type*} [AddMonoid M] (E : V → M → V → Prop) (u : V) : M → V → Prop
  | refl : Travels E u 0 u
  | tail {D w : M} {v x : V} (h : Travels E u D v) (hE : E v w x) : Travels E u (D + w) x

section
variable {V M : Type*} [Add M] [LE M]

/-- The second stop can be reached from the first in the time between them. -/
def Connects (E : V → M → V → Prop) (a b : M × V) : Prop := ∃ w, E a.2 w b.2 ∧ a.1 + w ≤ b.1

/-- Every stop can be reached from the one before. -/
abbrev Timetable (E : V → M → V → Prop) (stops : List (M × V)) : Prop := stops.IsChain (Connects E)

end
