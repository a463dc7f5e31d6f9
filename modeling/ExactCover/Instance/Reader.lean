import ExactCover.Brace.Family
import ExactCover.Instance.Basic
import ExactCover.Text.Lines

/-!
# Reading an instance

The first line of an instance text is the ground set as one brace group; all that follows is the
family of subsets. The tokens of the ground set must be distinct, and each subset lists distinct
tokens of the ground set. Nothing is returned unless the whole text is well formed.
-/

namespace ExactCover

/-- What can be wrong with an instance text. -/
inductive FormatError where
  | malformedGroundSet (near : String)
  | emptyGroundSet
  | duplicateGroundElement (token : String)
  | malformedFamily (near : String)
  | duplicateSubsetElement (token subset : String)
  | unknownElement (token : String)
  deriving DecidableEq, Repr

/-- The error in words. -/
def FormatError.message : FormatError → String
  | malformedGroundSet near => "invalid ground set near '" ++ near ++ "'"
  | emptyGroundSet => "the ground set is empty"
  | duplicateGroundElement t => "element " ++ t ++ " is repeated in the ground set"
  | malformedFamily near => "invalid subset family near '" ++ near ++ "'"
  | duplicateSubsetElement t subset =>
    "element " ++ t ++ " is repeated in the \"\x7b" ++ subset ++ "\x7d\" set"
  | unknownElement t => "element " ++ t ++ " has not been found in the ground set"

namespace Instance

open Brace Text

/-- The ground set that a line holds. A repeated token is reported before an empty set. -/
def readGround (line : List Char) : Except FormatError GroundSet :=
  match readSingle line with
  | .error stuck => .error (.malformedGroundSet (excerpt stuck))
  | .ok group =>
    match GroundSet.ofDistinct group.tokens with
    | .error t => .error (.duplicateGroundElement t)
    | .ok ground => if ground.size = 0 then .error .emptyGroundSet else .ok ground

/-- The numbers of the tokens of a group, after those already `seen` in it, the last one first. The
first token that is unknown or repeats an earlier one is an error. -/
def readElements (ground : GroundSet) (group : Group) :
    (seen : List Nat) → List String → Except FormatError (List Nat)
  | seen, [] => .ok seen.reverse
  | seen, t :: ts =>
    match ground.indexOf? t with
    | none => .error (.unknownElement t)
    | some e =>
      if e ∈ seen then
        .error (.duplicateSubsetElement t (String.ofList (trim group.inner)))
      else
        readElements ground group (e :: seen) ts

/-- The subset that a group names. -/
def readSubset (ground : GroundSet) (group : Group) : Except FormatError Subset :=
  (readElements ground group [] group.tokens).map Subset.mk

/-- The family of subsets that a text holds, over a ground set already read. -/
def readSubsets (ground : GroundSet) (cs : List Char) : Except FormatError (List Subset) :=
  match Brace.readFamily cs with
  | .error stuck => .error (.malformedFamily (excerpt stuck))
  | .ok groups => groups.mapM (readSubset ground)

/-- The instance that a text holds. -/
def parse (text : String) : Except FormatError Instance := do
  let (line, rest) := cutFirstLine text.toList
  let ground ← readGround line
  let subsets ← readSubsets ground rest
  return ⟨ground, subsets.toArray⟩

end Instance

end ExactCover
