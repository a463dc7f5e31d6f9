import ExactCover.Cnf.Dimacs
import ExactCover.CommandLine.Session
import ExactCover.Cover.Printer

/-!
# The solving program

Reads an instance, writes its formula to a file, runs a solver on that file and prints the cover
that the model of the solver selects. Nothing is written and no solver started before the instance
has been read and encoded.
-/

namespace ExactCover.CommandLine.Solve

/-- What the program is asked to do. -/
structure Options where
  input : String := "input.in"
  output : String := "output.cnf"
  solver : String := "glucose-syrup"
  verbosity : Nat := 1
  deriving DecidableEq, Repr

/-- The verbosity that a text states: 0 or 1. -/
def verbosity? (text : String) : Option Nat :=
  ((Text.Decimal.signed? text.toList).filter fun z => 0 ≤ z ∧ z ≤ 1).map Int.toNat

/-- The options of the program. -/
def specs : List OptionSpec :=
  let standard : Options := {}
  [{ name := "input", letter := some 'i', valueName := some "INPUT", standard := standard.input,
     help := "The instance file", accepts := fun _ => true },
   { name := "output", letter := some 'o', valueName := some "OUTPUT", standard := standard.output,
     help := "Output file for the DIMACS format (i.e. the CNF formula)", accepts := fun _ => true },
   { name := "solver", letter := some 's', valueName := some "SOLVER", standard := standard.solver,
     help := "The SAT solver to be used", accepts := fun _ => true },
   { name := "verb", letter := some 'v', valueName := some "VERB",
     standard := toString standard.verbosity, help := "Verbosity of the SAT solver used",
     accepts := fun value => (verbosity? value).isSome }]

/-- The options that given values state; an absent one keeps its standard value. -/
def Options.ofGiven (given : Given) : Options :=
  let standard : Options := {}
  { input := (given.value? "input").getD standard.input
    output := (given.value? "output").getD standard.output
    solver := (given.value? "solver").getD standard.solver
    verbosity := ((given.value? "verb").bind verbosity?).getD standard.verbosity }

section Session

variable {m : Type → Type} [Monad m] [Host m]

/-- The text of the instance file. -/
def readText (path : String) : ExceptT Failure m String := do
  let bytes ← orFail (.unreadableInstance path) (← ExceptT.lift (Host.read path))
  match String.fromUTF8? bytes with
  | some text => return text
  | none => throw (.unreadableInstance path .invalidText)

/-- Reads the instance file. -/
def readInstance (path : String) : ExceptT Failure m Instance := do
  record (.readingInstance path)
  let (line, rest) := Text.cutFirstLine (← readText path).toList
  let ground ← orFail (.invalidInstance path) (Instance.readGround line)
  record (.groundSetRead ground.size)
  let subsets ← orFail (.invalidInstance path) (Instance.readSubsets ground rest)
  record (.familyRead subsets.length)
  return ⟨ground, subsets.toArray⟩

/-- Encodes the instance. -/
def encode (i : Instance) : ExceptT Failure m Formula := do
  match i.occurrences? with
  | none => throw .strayElement
  | some o =>
    let f ← orFail .encoding (o.encode i.subsetCount)
    record (.encoded o.size (f.size - o.size))
    return f

/-- Writes the formula to a file. -/
def save (f : Formula) (path : String) : ExceptT Failure m Unit := do
  writeFile path f.dimacs.toUTF8
  record (.formulaWritten f.size f.vars path)

/-- The model in the output of the solver. -/
def readModel (output : String) : ExceptT Failure m Model := do
  match Model.parse output with
  | .ok model => return model
  | .error e =>
    match e.near? with
    | some near => record (.valueLineRejected near)
    | none => pure ()
    throw (.invalidModel e)

/-- Prints the cover that the model selects. A model that selects none is only warned about, as long
as all of its variables belong to subsets. -/
def printCover (i : Instance) (model : Model) : ExceptT Failure m Unit := do
  match i.verify model with
  | .ok () => pure ()
  | .error reason => record (.notACover reason)
  let selection ← orFail .cover (i.selected model)
  ExceptT.lift (Host.print (Cover.print selection))

/-- Prints what the solver printed, and then what it means for the instance. -/
def report (i : Instance) (run : SolverRun) : ExceptT Failure m Unit := do
  ExceptT.lift (Host.print (Text.echo run.output))
  match run.verdict with
  | .satisfiable => printCover i (← readModel run.output)
  | .unsatisfiable => record .noCoverExists
  | .unknown code => record (.noVerdict code)

/-- Does what the options ask for. -/
def session (o : Options) : ExceptT Failure m Unit := do
  let i ← readInstance o.input
  record (.instanceRead i.ground.size i.subsetCount)
  let f ← encode i
  save f o.output
  let solver : Solver := ⟨o.solver, o.verbosity⟩
  let run ← orFail .solver (← ExceptT.lift (solver.run o.output))
  report i run

/-- Runs the program on its arguments. -/
def run : List String → m Outcome :=
  start "excover" specs fun given => session (.ofGiven given)

end Session

end ExactCover.CommandLine.Solve
