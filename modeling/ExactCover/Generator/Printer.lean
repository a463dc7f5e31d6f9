import ExactCover.Generator.Basic

/-!
# Writing a generated instance

The text of a generated family in the format of instances: the ground set on the first line, each
subset on a line of its own. Elements are named by the numbers from one on.
-/

namespace ExactCover.Generator.Generated

/-- Every element of every subset has a name, which is a 64-bit number. -/
def HasNames (g : Generated) : Prop :=
  ∀ s ∈ g.subsets, ∀ e ∈ s, e < maxCount

instance (g : Generated) : Decidable g.HasNames :=
  inferInstanceAs (Decidable (∀ s ∈ g.subsets, ∀ e ∈ s, e < maxCount))

/-- The name of an element. -/
def name (e : Nat) : String :=
  toString (e + 1)

/-- The line of the ground set. -/
def groundLine (n : Nat) : String :=
  "\x7b " ++ String.join ((List.range n).map fun e => name e ++ " ") ++ "\x7d\n"

/-- The line of a subset. -/
def subsetLine (s : List Nat) : String :=
  "    \x7b " ++ " ".intercalate (s.map name) ++ " \x7d\n"

/-- The text of the family. -/
def render (g : Generated) : String :=
  groundLine g.groundSize ++ "\x7b\n" ++ String.join (g.subsets.map subsetLine) ++ "\x7d\n"

end ExactCover.Generator.Generated
