/-!
# Starting a solver

A solver is started on a formula file with the request to print its model.
-/

namespace ExactCover

/-- A program to start and its arguments. -/
structure Command where
  program : String
  arguments : List String
  deriving DecidableEq, Repr

/-- A solver program and how talkative it shall be. -/
structure Solver where
  program : String
  verbosity : Nat
  deriving DecidableEq, Repr

namespace Solver

/-- A path relative to the working directory, said explicitly. An absolute path stays. -/
def fromHere (path : String) : String :=
  if path.toList.head? = some '/' then path else "./" ++ path

/-- The command that runs the solver on a file. A program that is a file itself is started from the
working directory; any other name is left to the system to find. -/
def command (s : Solver) (programIsFile : Bool) (cnf : String) : Command where
  program := if programIsFile then fromHere s.program else s.program
  arguments := ["-model", "-verb=" ++ toString s.verbosity, cnf]

end Solver

end ExactCover
