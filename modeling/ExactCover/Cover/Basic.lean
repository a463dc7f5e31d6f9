import ExactCover.Instance.Basic
import ExactCover.Model.Basic

/-!
# Covers

A model selects the subsets at its true variables. `selected` lists them for a reader, and `verify`
checks that they partition the ground set.
-/

namespace ExactCover

/-- Why a model does not select an exact cover. -/
inductive CoverError where
  /-- A true variable belongs to no subset. -/
  | unknownVariable (var subsetCount : Nat)
  /-- A selected subset holds an element outside the ground set. -/
  | strayElement (element : Nat)
  | uncovered (token : String)
  | overcovered (token : String) (times : Nat)
  deriving DecidableEq, Repr

/-- The error in words. -/
def CoverError.message : CoverError → String
  | unknownVariable v subsetCount =>
    "model sets variable " ++ toString v ++ " but there are only " ++ toString subsetCount ++
      " subsets"
  | strayElement e => "element number " ++ toString e ++ " is not in the ground set"
  | uncovered t => "element " ++ t ++ " is not covered by the selected subsets"
  | overcovered t times =>
    "element " ++ t ++ " is covered " ++ toString times ++ " times by the selected subsets"

namespace Instance

/-- The tokens of every selected subset, by ascending position. The tokens of a subset are sorted by
code points. -/
def selected (i : Instance) (m : Model) : Except CoverError (List (List String)) :=
  m.trueVars.mapM fun v =>
    match i.tokens? v with
    | some ts => .ok (ts.mergeSort fun a b => decide (a ≤ b))
    | none => .error (.unknownVariable v i.subsetCount)

/-- The elements of the subset at a position, all of them in the ground set. -/
def checkSubset (i : Instance) (position : Nat) : Except CoverError (List Nat) :=
  match i.subset? position with
  | none => .error (.unknownVariable position i.subsetCount)
  | some s =>
    match s.elements.find? (i.ground.size ≤ ·) with
    | some e => .error (.strayElement e)
    | none => .ok s.elements

/-- How often each element of the ground set occurs among some elements. -/
def tally (i : Instance) (elements : List Nat) : List Nat :=
  (Bins.collect i.ground.size (elements.map (·, ()))).toList.map Array.size

/-- The verdict on how often each element is covered: the first that is not covered once decides. -/
def judge (i : Instance) (counts : List Nat) : Except CoverError Unit :=
  match counts.zipIdx.find? (·.1 != 1) with
  | none => .ok ()
  | some (0, e) => .error (.uncovered ((i.ground.element? e).getD ""))
  | some (times, e) => .error (.overcovered ((i.ground.element? e).getD "") times)

/-- Checks that the selected subsets partition the ground set. The true variables are looked up in
ascending order before any element is counted. -/
def verify (i : Instance) (m : Model) : Except CoverError Unit := do
  let elements ← m.trueVars.mapM i.checkSubset
  i.judge (i.tally elements.flatten)

end Instance

end ExactCover
