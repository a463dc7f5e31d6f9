import ExactCover.Bins
import ExactCover.GroundSet

/-!
# Instances of the exact cover problem

An instance is a ground set and a family of candidate subsets. The subset at position `p`, counted
from one, belongs to the variable `p` of the formula that the instance is encoded as. An occurrence
index is the family turned around: for each element the positions of the subsets that hold it.
-/

namespace ExactCover

/-- A candidate subset: the numbers of its elements, in the order in which they were given. -/
structure Subset where
  elements : List Nat
  deriving DecidableEq, Repr, Inhabited

/-- For each element of a ground set, in order, the positions of the subsets that hold it. -/
structure OccurrenceIndex where
  lists : List (List Nat)
  deriving DecidableEq, Repr, Inhabited

/-- A ground set and a family of candidate subsets. -/
structure Instance where
  ground : GroundSet
  subsets : Array Subset
  deriving Inhabited

namespace OccurrenceIndex

/-- The number of elements. -/
def size (o : OccurrenceIndex) : Nat :=
  o.lists.length

/-- The positions listed for an element. -/
def of? (o : OccurrenceIndex) (element : Nat) : Option (List Nat) :=
  o.lists[element]?

end OccurrenceIndex

namespace Instance

/-- The number of candidate subsets. -/
def subsetCount (i : Instance) : Nat :=
  i.subsets.size

/-- The subset at a position, counted from one. -/
def subset? (i : Instance) : Nat → Option Subset
  | 0 => none
  | n + 1 => i.subsets[n]?

/-- The tokens of the subset at a position. An element outside the ground set has none. -/
def tokens? (i : Instance) (position : Nat) : Option (List String) :=
  (i.subset? position).map fun s => s.elements.filterMap i.ground.element?

/-- Every element of every subset belongs to the ground set. -/
def InGround (i : Instance) : Prop :=
  ∀ s ∈ i.subsets, ∀ e ∈ s.elements, e < i.ground.size

instance (i : Instance) : Decidable i.InGround :=
  inferInstanceAs (Decidable (∀ s ∈ i.subsets, ∀ e ∈ s.elements, e < i.ground.size))

/-- Each element of each subset with the position of the subset, in reading order. -/
def memberships (i : Instance) : List (Nat × Nat) :=
  (i.subsets.toList.zipIdx 1).flatMap fun (s, p) => s.elements.map (·, p)

/-- For each element the positions of the subsets that hold it, if no element is outside the ground
set. A subset that repeats an element is listed once for each time. -/
def occurrences? (i : Instance) : Option OccurrenceIndex :=
  if i.InGround then
    some ⟨(Bins.collect i.ground.size i.memberships).toList.map Array.toList⟩
  else
    none

end Instance

end ExactCover
