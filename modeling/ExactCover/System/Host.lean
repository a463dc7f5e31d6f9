import ExactCover.Log.Event
import ExactCover.Solver.Command
import ExactCover.System.FileTree
import ExactCover.Text.Utf8

/-!
# Hosts

All that the programs do to the world is a call on a host. `Machine` is a host that is itself a
value: a file tree, and records of what was printed, logged and started. What is written to a device
of the file tree that stands for an output is printed there. Other programs and chance come to the
machine from an environment that is fixed for a run.
-/

namespace ExactCover

/-- How a started program ended, and what it printed. -/
structure Ended where
  status : ExitStatus
  output : ByteArray

/-- The calls that a program can make on the world. -/
class Host (m : Type → Type) where
  /-- The bytes of the file at a path. -/
  read : String → m (Except FileError ByteArray)
  /-- Replaces the bytes of the file at a path, or makes it. -/
  write : String → ByteArray → m (Except FileError Unit)
  /-- The path leads to a file. -/
  isFile : String → m Bool
  /-- Runs a command to its end. -/
  launch : Command → m (Except FileError Ended)
  /-- Writes to the standard output. -/
  print : String → m Unit
  /-- Reports an event to the log. -/
  record : Log.Event → m Unit
  /-- A number that nobody can foresee. -/
  chance : m UInt64

/-- What a machine cannot settle itself. -/
structure Environment where
  /-- What becomes of a command that is started on a file tree. -/
  launch : Command → FileTree → Except FileError Ended
  chance : UInt64

/-- The state of a machine. -/
structure Machine where
  files : FileTree
  /-- What was printed. -/
  printed : String
  /-- What was written to the standard error output, apart from the log. -/
  complained : String
  /-- What was reported, in order. -/
  events : Array Log.Event
  /-- The commands started so far, each with the files at that moment. -/
  launches : List (Command × FileTree)

/-- A machine on which nothing has happened yet. -/
def Machine.fresh (files : FileTree) : Machine :=
  ⟨files, "", "", #[], []⟩

/-- The machine after bytes have gone to the path, with the files as that left them. -/
def Machine.written (m : Machine) (path : String) (bytes : ByteArray) (files : FileTree) : Machine :=
  let text := Text.Utf8.decodeLossy bytes
  match m.files.device? path with
  | some .output => { m with files, printed := m.printed ++ text }
  | some .errors => { m with files, complained := m.complained ++ text }
  | _ => { m with files }

/-- Programs that run on a machine. -/
abbrev OnMachine := ReaderT Environment (StateM Machine)

instance : Host OnMachine where
  read path := do return (← get).files.read path
  write path bytes := do
    match (← get).files.write path bytes with
    | .ok files =>
      modify (·.written path bytes files)
      return .ok ()
    | .error e => return .error e
  isFile path := do return (← get).files.isFile path
  launch command := do
    let files := (← get).files
    modify fun m => { m with launches := m.launches ++ [(command, files)] }
    return (← read).launch command files
  print text := modify fun m => { m with printed := m.printed ++ text }
  record event := modify fun m => { m with events := m.events.push event }
  chance := do return (← read).chance

end ExactCover
