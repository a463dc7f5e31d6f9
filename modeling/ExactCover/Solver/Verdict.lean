/-!
# How a solver ends

A solver exits with a code or is killed by a signal. Code 10 says that it found a model and code 20
that there is none; every other end is no verdict.
-/

namespace ExactCover

/-- How a process ended. -/
inductive ExitStatus where
  | exited (code : Int)
  | signaled (number : Nat)
  deriving DecidableEq, Repr

namespace ExitStatus

/-- The names of the signals from 1 on. -/
def signalNames : List String :=
  ["SIGHUP", "SIGINT", "SIGQUIT", "SIGILL", "SIGTRAP", "SIGABRT", "SIGBUS", "SIGFPE", "SIGKILL",
   "SIGUSR1", "SIGSEGV", "SIGUSR2", "SIGPIPE", "SIGALRM", "SIGTERM", "SIGSTKFLT", "SIGCHLD",
   "SIGCONT", "SIGSTOP", "SIGTSTP", "SIGTTIN", "SIGTTOU", "SIGURG", "SIGXCPU", "SIGXFSZ",
   "SIGVTALRM", "SIGPROF", "SIGWINCH", "SIGIO", "SIGPWR", "SIGSYS"]

/-- The exit code, unless a signal killed the process. -/
def code? : ExitStatus → Option Int
  | exited code => some code
  | signaled _ => none

/-- The status in words. -/
def message : ExitStatus → String
  | exited code => "exit status: " ++ toString code
  | signaled number =>
    let name := match number with
      | 0 => none
      | n + 1 => signalNames[n]?
    "signal: " ++ toString number ++ (name.map fun s => " (" ++ s ++ ")").getD ""

end ExitStatus

/-- What the end of a solver says about the formula. -/
inductive Verdict where
  | satisfiable
  | unsatisfiable
  /-- Nothing; the exit code, if there is one. -/
  | unknown (code : Option Int)
  deriving DecidableEq, Repr

/-- The verdict of an exit code, which is missing after a signal. -/
def Verdict.ofCode (code : Option Int) : Verdict :=
  if code = some 10 then satisfiable
  else if code = some 20 then unsatisfiable
  else unknown code

end ExactCover
