import ExactCover.CommandLine.Generate
import ExactCover.CommandLine.Solve
import ExactCover.Log.Filter

/-!
# The command line

The real world as a host, and the entry point. One executable holds both programs: under the name
`excover-generate` it generates an instance, under any other name it solves one. Events go to the
standard error output as the filter in `RUST_LOG` asks. This host starts no other programs, so
solving ends after the formula has been written.
-/

open ExactCover

namespace ExactCover.CommandLine

/-- Programs that run in the real world, with a log filter. -/
abbrev InWorld := ReaderT Log.Filter IO

/-- The error of the system in the terms of this library. -/
def fileErrorOf : IO.Error → FileError
  | .noFileOrDirectory .. => .notFound
  | .permissionDenied .. => .permissionDenied
  | .inappropriateType _ 20 _ => .notADirectory
  | .inappropriateType _ 21 _ => .isADirectory
  | e => .other (toString e)

/-- The result of a file operation. -/
def attempt {α : Type} (action : IO α) : IO (Except FileError α) := do
  return (← action.toBaseIO).mapError fileErrorOf

/-- The number with the given bytes, the first one lowest. -/
def numberOfBytes (bytes : ByteArray) : UInt64 :=
  bytes.data.foldr (fun b n => n * 256 + b.toUInt64) 0

instance : Host InWorld where
  read path := attempt (IO.FS.readBinFile path)
  write path bytes := attempt (IO.FS.writeBinFile path bytes)
  isFile path := do return (← attempt (IO.FS.readBinFile path)).isOk
  launch _ := return .error (.other "Operation not supported (os error 95)")
  print text := do (← IO.getStdout).putStr text
  record event := do
    if (← read).admits event then
      (← IO.getStderr).putStrLn event.line
  chance := return numberOfBytes (← IO.getRandomBytes 8)

/-- The text of the log filter that the environment asks for. -/
def filterText : IO String := do
  return (← IO.getEnv "RUST_LOG").getD ""

/-- The exit code that stands for the end of the process. -/
def exitCodeOf : ExitStatus → UInt32
  | .exited code => code.toNat.toUInt32
  | .signaled number => (128 + number).toUInt32

end ExactCover.CommandLine

/-- Runs the program that the executable is named for. -/
def main (arguments : List String) : IO UInt32 := do
  let filterText ← CommandLine.filterText
  for complaint in Log.Filter.complaints filterText do
    (← IO.getStderr).putStrLn complaint
  let generating := (← IO.appPath).fileName == some "excover-generate"
  let program : CommandLine.InWorld CommandLine.Outcome :=
    if generating then CommandLine.Generate.run arguments else CommandLine.Solve.run arguments
  let outcome ← (CommandLine.underFilter filterText program).run (.ofString filterText)
  if let some text := outcome.report? then
    (← IO.getStderr).putStrLn text
  return CommandLine.exitCodeOf outcome.status
