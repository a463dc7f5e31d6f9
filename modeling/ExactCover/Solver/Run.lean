import ExactCover.System.Host
import ExactCover.Text.Utf8

/-!
# Running a solver

A solver runs to its end on a formula file that must exist. Its output is read as text even where it
is none.
-/

namespace ExactCover

/-- Why a solver did not run. -/
inductive SolverError where
  | missingCnf (path : String)
  | spawn (program : String) (reason : FileError)
  deriving DecidableEq, Repr

/-- The error in words. -/
def SolverError.message : SolverError → String
  | missingCnf path => "file " ++ path ++ " has not been found"
  | spawn program _ => "could not start solver '" ++ program ++ "'"

/-- What lies behind the error, in words. -/
def SolverError.cause? : SolverError → Option String
  | missingCnf _ => none
  | spawn _ reason => some reason.message

/-- How a solver ended, and its output as text. -/
structure SolverRun where
  status : ExitStatus
  output : String
  deriving DecidableEq, Repr

/-- What the run says about the formula. -/
def SolverRun.verdict (r : SolverRun) : Verdict :=
  .ofCode r.status.code?

/-- The run of a process that ended. -/
def SolverRun.ofEnded (e : Ended) : SolverRun :=
  ⟨e.status, Text.Utf8.decodeLossy e.output⟩

/-- Runs the solver on a formula file. -/
def Solver.run {m : Type → Type} [Monad m] [Host m] (s : Solver) (cnf : String) :
    m (Except SolverError SolverRun) := do
  if !(← Host.isFile cnf) then
    return .error (.missingCnf cnf)
  Host.record (.solverStarting s.program cnf)
  match ← Host.launch (s.command (← Host.isFile s.program) cnf) with
  | .error reason => return .error (.spawn s.program reason)
  | .ok ended =>
    Host.record (.solverEnded ended.status)
    return .ok (.ofEnded ended)

end ExactCover
