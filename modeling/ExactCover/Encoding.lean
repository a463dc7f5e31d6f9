import ExactCover.Cnf.Formula
import ExactCover.Instance.Basic

/-!
# Encoding an instance as a formula

The variable `p` says that the subset at position `p` is selected. For each element there is one
clause that wants a selected subset among those that hold it (coverage), and for each two of them a
clause that forbids to select both (exclusivity). An assignment satisfies all of them exactly if it
selects, for each element, one of the positions listed for it.
-/

namespace ExactCover

/-- Why lists of positions cannot be encoded. -/
inductive EncodeError where
  /-- A list names a position that no subset has. -/
  | positionOutOfRange (element position subsetCount : Nat)
  /-- There are more subsets than variables. -/
  | tooManySubsets (subsetCount : Nat)
  deriving DecidableEq, Repr

/-- The error in words. -/
def EncodeError.message : EncodeError → String
  | positionOutOfRange element position subsetCount =>
    "element " ++ toString element ++ " references subset " ++ toString position ++ ", only 1..=" ++
      toString subsetCount ++ " exist"
  | tooManySubsets subsetCount =>
    toString subsetCount ++ " subsets do not fit into DIMACS variables"

namespace Encoding

/-- A position that one of `m` subsets has. -/
abbrev Position (m : Nat) := { p : Nat // 1 ≤ p ∧ p ≤ m }

/-- The list of an element as positions of the family, or its first entry that is none. -/
def checkList (m element : Nat) (list : List Nat) : Except EncodeError (List (Position m)) :=
  list.mapM fun p =>
    if h : 1 ≤ p ∧ p ≤ m then .ok ⟨p, h⟩ else .error (.positionOutOfRange element p m)

/-- All lists as positions of the family; the first entry in reading order that is none decides. -/
def checkLists (m : Nat) (lists : List (List Nat)) : Except EncodeError (List (List (Position m))) :=
  lists.zipIdx.mapM fun (list, element) => checkList m element list

/-- The literal that says of a position whether its subset is selected. -/
def literal {m : Nat} (fits : m ≤ maxVariable) (selected : Bool) (p : Position m) : Literal :=
  .ofVariable p.1 selected ⟨p.2.1, Nat.le_trans p.2.2 fits⟩

/-- All pairs of entries at two places of a list, the earlier place first, in lexicographic order of
the places. -/
def pairs {α : Type} : List α → List (α × α)
  | [] => []
  | a :: as => as.map (a, ·) ++ pairs as

/-- One of the positions is selected. -/
def coverage {m : Nat} (fits : m ≤ maxVariable) (list : List (Position m)) : Clause :=
  list.map (literal fits true)

/-- No two of the positions are selected. -/
def exclusivity {m : Nat} (fits : m ≤ maxVariable) (list : List (Position m)) : List Clause :=
  (pairs list).map fun (p, q) => [literal fits false p, literal fits false q]

/-- The coverage clauses of all elements, then the exclusivity clauses of all elements. -/
def clauses {m : Nat} (fits : m ≤ maxVariable) (lists : List (List (Position m))) : List Clause :=
  lists.map (coverage fits) ++ lists.flatMap (exclusivity fits)

end Encoding

/-- The formula of an occurrence index over a family of `m` subsets. -/
def OccurrenceIndex.encode (o : OccurrenceIndex) (m : Nat) : Except EncodeError Formula :=
  if fits : m ≤ maxVariable then
    (Encoding.checkLists m o.lists).map fun lists =>
      Formula.ofClauses m (Encoding.clauses fits lists)
  else
    .error (.tooManySubsets m)

end ExactCover
