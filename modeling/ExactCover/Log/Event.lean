import ExactCover.Cover.Basic
import ExactCover.Solver.Verdict
import ExactCover.Text.Visible

/-!
# Log events

What the programs report while they run. Every event has a level and a target, which names the part
of the program that it comes from.
-/

namespace ExactCover.Log

/-- How urgent an event is. -/
inductive Level where
  | error
  | warn
  | info
  | debug
  | trace
  deriving DecidableEq, Repr

/-- The levels by falling urgency, from 1 on; 0 is for none. -/
def Level.rank : Level → Nat
  | error => 1
  | warn => 2
  | info => 3
  | debug => 4
  | trace => 5

/-- The name of a level in a log line. -/
def Level.name : Level → String
  | error => "ERROR"
  | warn => "WARN"
  | info => "INFO"
  | debug => "DEBUG"
  | trace => "TRACE"

/-- The parts of the programs. -/
inductive Target where
  | solving
  | generating
  | instanceReader
  | modelReader
  | encoder
  | solver
  | generator
  deriving DecidableEq, Repr

/-- The path of a part, by which filters select. -/
def Target.path : Target → String
  | solving => "excover"
  | generating => "excover_generate"
  | instanceReader => "excover::parser::instance"
  | modelReader => "excover::parser::model"
  | encoder => "excover::encoder"
  | solver => "excover::solver"
  | generator => "excover::generator"

/-- What is reported. -/
inductive Event where
  | readingInstance (path : String)
  | groundSetRead (elements : Nat)
  | familyRead (subsets : Nat)
  | instanceRead (elements subsets : Nat)
  | encoded (coverage exclusivity : Nat)
  | formulaWritten (clauses vars : Nat) (path : String)
  | solverStarting (program cnf : String)
  | solverEnded (status : ExitStatus)
  | valueLineRejected (near : String)
  | notACover (reason : CoverError)
  | noCoverExists
  | noVerdict (code : Option Int)
  | familyGenerated (subsets elements : Nat)
  | generatedWritten (subsets elements : Nat) (path : String)
  deriving DecidableEq, Repr

namespace Event

/-- How urgent the event is. -/
def level : Event → Level
  | groundSetRead _ | familyRead _ | encoded .. | valueLineRejected _ | familyGenerated .. => .debug
  | notACover _ | noVerdict _ => .warn
  | _ => .info

/-- Where the event comes from. -/
def target : Event → Target
  | readingInstance _ | groundSetRead _ | familyRead _ => .instanceReader
  | valueLineRejected _ => .modelReader
  | encoded .. => .encoder
  | solverStarting .. | solverEnded _ => .solver
  | familyGenerated .. => .generator
  | generatedWritten .. => .generating
  | instanceRead .. | formulaWritten .. | notACover _ | noCoverExists | noVerdict _ => .solving

/-- An exit code that may be missing. -/
def codeText : Option Int → String
  | some code => "Some(" ++ toString code ++ ")"
  | none => "None"

/-- The event in words. -/
def message : Event → String
  | readingInstance path => s!"reading instance {path}"
  | groundSetRead elements => s!"ground set with {elements} elements"
  | familyRead subsets => s!"family with {subsets} subsets"
  | instanceRead elements subsets => s!"{elements} elements and {subsets} subsets"
  | encoded coverage exclusivity =>
    s!"encoded {coverage} coverage and {exclusivity} exclusivity clauses"
  | formulaWritten clauses vars path =>
    s!"wrote {clauses} clauses over {vars} variables to {path}"
  | solverStarting program cnf => s!"running {program} on {cnf}"
  | solverEnded status => s!"solver exited with {status.message}"
  | valueLineRejected near => s!"value line rejected near '{near}'"
  | notACover reason => s!"solver model is not an exact cover: {reason.message}"
  | noCoverExists => "no exact cover exists"
  | noVerdict code => s!"solver gave no verdict (exit code {codeText code})"
  | familyGenerated subsets elements => s!"generated {subsets} subsets over {elements} elements"
  | generatedWritten subsets elements path =>
    s!"wrote {subsets} subsets over {elements} elements to {path}"

/-- The log line of the event. -/
def line (e : Event) : String :=
  e.level.name ++ " " ++ e.target.path ++ ": " ++ Text.visible e.message

end Event

end ExactCover.Log
