import ExactCover.Model.Basic
import ExactCover.Model.ValueLine
import ExactCover.Text.Lines

/-!
# Reading a model from the output of a solver

All lines that begin with `v` are value lines, and only they matter. Their integers, taken together
in order, are the literals of the model and one zero after the last of them.
-/

namespace ExactCover

/-- Why an output holds no model. -/
inductive ModelError where
  | noValueLines
  | malformedLine (line : String)
  | missingSentinel
  | misplacedSentinel
  deriving DecidableEq, Repr

/-- The error in words. -/
def ModelError.message : ModelError → String
  | noValueLines => "solver output contains no value lines"
  | malformedLine line => "invalid value line '" ++ line ++ "'"
  | missingSentinel => "model is not terminated by 0"
  | misplacedSentinel => "0 appears before the end of the model"

/-- The place in a malformed value line where reading gave up, quoted. -/
def ModelError.near? : ModelError → Option String
  | malformedLine line =>
    match ValueLine.read line.toList with
    | .error stuck => some (Text.excerpt stuck)
    | .ok _ => none
  | _ => none

namespace Model

open ValueLine

/-- The value lines of an output, without trailing white space. -/
def valueLines (output : List Char) : List (List Char) :=
  ((Text.lines output).filter (·.head? = some 'v')).map Text.trimEnd

/-- The integers of a value line. -/
def readLine (line : List Char) : Except ModelError (List Value) :=
  match ValueLine.read line with
  | .ok vs => .ok vs
  | .error _ => .error (.malformedLine (String.ofList line))

/-- The literals among values of which none is zero. -/
def literals? (vs : List Value) : Option (List Literal) :=
  vs.mapM fun
    | .literal l => some l
    | .sentinel => none

/-- The model that all the values of an output form. -/
def ofValues (vs : List Value) : Except ModelError Model :=
  match vs.getLast? with
  | none => .error .noValueLines
  | some (.literal _) => .error .missingSentinel
  | some .sentinel =>
    match literals? vs.dropLast with
    | some ls => .ok ⟨ls⟩
    | none => .error .misplacedSentinel

/-- The model in the output of a solver. A malformed line is reported before all else. -/
def parse (output : String) : Except ModelError Model := do
  let values ← (valueLines output.toList).mapM readLine
  ofValues values.flatten

end Model

end ExactCover
