import ExactCover.CommandLine.Arguments
import ExactCover.Encoding
import ExactCover.Generator.Basic
import ExactCover.Instance.Reader
import ExactCover.Model.Reader
import ExactCover.Solver.Run

/-!
# Failures of a run

Why a program stops before its work is done, how it says so and how the process ends.
-/

namespace ExactCover.CommandLine

/-- Why a run fails. -/
inductive Failure where
  | unreadableInstance (path : String) (reason : FileError)
  | invalidInstance (path : String) (reason : FormatError)
  /-- A subset holds an element outside the ground set; instances that were read never do. -/
  | strayElement
  | encoding (reason : EncodeError)
  | unwritable (path : String) (reason : FileError)
  | solver (reason : SolverError)
  | invalidModel (reason : ModelError)
  | cover (reason : CoverError)
  | generator (reason : Generator.Error)
  /-- No program runs with the given log filter. -/
  | unsoundLogFilter
  deriving DecidableEq, Repr

namespace Failure

/-- The failure in words. -/
def message : Failure → String
  | unreadableInstance path _ => "could not read instance " ++ path
  | invalidInstance path _ => "invalid instance " ++ path
  | strayElement => "a subset holds an element outside the ground set"
  | encoding reason => reason.message
  | unwritable path _ => "could not write " ++ path
  | solver reason => reason.message
  | invalidModel _ => "invalid solver model"
  | cover reason => reason.message
  | generator reason => reason.message
  | unsoundLogFilter => "a word of the log filter is cut inside a character"

/-- What lies behind the failure, in words. -/
def cause? : Failure → Option String
  | unreadableInstance _ reason | unwritable _ reason => some reason.message
  | invalidInstance _ reason => some reason.message
  | solver reason => reason.cause?
  | invalidModel reason => some reason.message
  | strayElement | encoding _ | cover _ | generator _ | unsoundLogFilter => none

/-- A text with every line after the first indented as far as the first. -/
def indented (text : String) : String :=
  "    " ++ "\n    ".intercalate ((text.toList.splitOn '\n').map String.ofList)

/-- The report of the failure: the message and, below it, the cause. -/
def report (f : Failure) : String :=
  "Error: " ++ f.message ++ match f.cause? with
    | some cause => "\n\nCaused by:\n" ++ indented cause
    | none => ""

/-- How the process ends on the failure. Numbers that outgrow the machine have an exit code of their
own, and without memory the process aborts. -/
def status : Failure → ExitStatus
  | strayElement | generator .countOverflow | generator .tooLarge | unsoundLogFilter => .exited 101
  | generator .outOfMemory => .signaled 6
  | _ => .exited 1

end Failure

/-- How a run ends. -/
inductive Outcome where
  | done
  | failed (f : Failure)
  | misused (e : UsageError)
  deriving DecidableEq, Repr

namespace Outcome

/-- How the process ends. -/
def status : Outcome → ExitStatus
  | done => .exited 0
  | failed f => f.status
  | misused _ => .exited 2

/-- What is said about the end on the standard error output. -/
def report? : Outcome → Option String
  | done => none
  | failed f => some f.report
  | misused e => some ("error: " ++ e.message)

end Outcome

end ExactCover.CommandLine
