import ExactCover.CommandLine.Failure
import ExactCover.Log.Filter
import ExactCover.System.Host

/-!
# Sessions

A program scans its arguments and then holds a session with the host: a sequence of calls that stops
at the first failure. Bad arguments and requests for help end it before any session.
-/

namespace ExactCover.CommandLine

variable {m : Type → Type} [Monad m] [Host m]

/-- The value of a result, or the failure that its error is. -/
def orFail {ε α : Type} (failure : ε → Failure) (r : Except ε α) : ExceptT Failure m α :=
  ExceptT.mk (pure (r.mapError failure))

/-- Reports an event. -/
def record (e : Log.Event) : ExceptT Failure m Unit :=
  ExceptT.lift (Host.record e)

/-- Replaces the bytes of the file at a path. -/
def writeFile (path : String) (bytes : ByteArray) : ExceptT Failure m Unit := do
  orFail (.unwritable path) (← ExceptT.lift (Host.write path bytes))

/-- Runs a program under a log filter, if a program can run with its text at all. -/
def underFilter (filterText : String) (program : m Outcome) : m Outcome :=
  if Log.Filter.isSound filterText then program else return .failed .unsoundLogFilter

/-- Runs a program: scans its arguments and holds the session that they ask for. -/
def start (program : String) (specs : List OptionSpec) (session : Given → ExceptT Failure m Unit)
    (arguments : List String) : m Outcome := do
  match scan specs [] arguments with
  | .error e => return .misused e
  | .ok .help =>
    Host.print (helpText program specs)
    return .done
  | .ok (.run given) =>
    match ← (session given).run with
    | .ok () => return .done
    | .error f => return .failed f

end ExactCover.CommandLine
