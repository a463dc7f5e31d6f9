import ExactCover.System.FileError

/-!
# File trees

The state of a file system: what lies at each location, and the working directory. Links are left
out, and so are the permissions to read, to write and to search: every file can be read and written,
and every directory can be entered and added to. Only the permission to execute a file is kept, so
only starting a program can end in `permissionDenied`.

Paths are resolved name by name as the system does it: every name but the last must lead to a
directory, `.` stays, `..` goes up, and repeated slashes count once. A path that ends in a slash can
only name a directory. A name has at most 255 bytes and a path less than 4096.
-/

namespace ExactCover

/-- The names on the way from the root. -/
abbrev Location := List String

/-- What becomes of the bytes that are written to a device. There is nothing to read from one. -/
inductive Device where
  | swallows
  /-- There is no space for them. -/
  | full
  /-- They go to the standard output. -/
  | output
  /-- They go to the standard error output. -/
  | errors
  /-- Nothing is behind the device, and it cannot be opened. -/
  | disconnected
  deriving DecidableEq, Repr

/-- What lies at a location. -/
inductive Node where
  | directory
  | file (bytes : ByteArray) (executable : Bool)
  | device (kind : Device)

/-- The state of a file system. -/
structure FileTree where
  node? : Location → Option Node
  /-- The working directory. -/
  home : Location

/-- A resolved path. The last name may lead to nothing yet. -/
structure Target where
  location : Location
  /-- The path ends in a slash. -/
  slash : Bool

namespace FileTree

/-- The tree of the working directory and the directories on the way to it. -/
def empty (home : Location) : FileTree where
  node? l := if l <+: home then some .directory else none
  home := home

/-- The tree with a node put in place of what was at a location. -/
def put (t : FileTree) (l : Location) (n : Node) : FileTree :=
  { t with node? := fun l' => if l' = l then some n else t.node? l' }

/-- Where a name leads from a directory. -/
def step (l : Location) (name : String) : Location :=
  if name = "." then l else if name = ".." then l.dropLast else l ++ [name]

/-- Goes on from a location, name by name. -/
def walk (t : FileTree) : Location → List String → Except FileError Location
  | l, [] => .ok l
  | l, name :: names =>
    match t.node? l with
    | none => .error .notFound
    | some (.file ..) | some (.device _) => .error .notADirectory
    | some .directory =>
      if 255 < name.utf8ByteSize then .error .nameTooLong
      else t.walk (step l name) names

/-- The names of a path, without the slashes. -/
def names (path : String) : List String :=
  ((path.toList.splitOn '/').filter (!·.isEmpty)).map String.ofList

/-- Goes on from where a path starts. The empty path leads nowhere. -/
def follow (t : FileTree) (path : String) (names : List String) : Except FileError Location :=
  if path.isEmpty then .error .notFound
  else if 4096 ≤ path.utf8ByteSize then .error .nameTooLong
  else t.walk (if path.toList.head? = some '/' then [] else t.home) names

/-- The path ends in a slash. -/
def endsInSlash (path : String) : Bool :=
  path.toList.getLast? = some '/'

/-- Finds where a path leads. -/
def resolve (t : FileTree) (path : String) : Except FileError Target :=
  (t.follow path (names path)).map (⟨·, endsInSlash path⟩)

/-- The bytes of the file at a path. -/
def read (t : FileTree) (path : String) : Except FileError ByteArray := do
  let target ← t.resolve path
  match t.node? target.location with
  | none => .error .notFound
  | some .directory => .error .isADirectory
  | some (.file bytes _) => if target.slash then .error .notADirectory else .ok bytes
  | some (.device kind) =>
    if target.slash then .error .notADirectory
    else if kind = .disconnected then .error .noDevice
    else .ok ByteArray.empty

/-- Gives the file at a path new bytes; a file that was not there is made. No file is made at a path
that ends in a slash, whatever its last name. -/
def write (t : FileTree) (path : String) (bytes : ByteArray) : Except FileError FileTree := do
  if endsInSlash path then
    let _ ← t.follow path ((names path).dropLast ++ ["."])
    throw .isADirectory
  let target ← t.resolve path
  match t.node? target.location with
  | none => .ok (t.put target.location (.file bytes false))
  | some .directory => .error .isADirectory
  | some (.file _ executable) => .ok (t.put target.location (.file bytes executable))
  | some (.device kind) =>
    match kind with
    | .full => .error .noSpace
    | .disconnected => .error .noDevice
    | .swallows | .output | .errors => .ok t

/-- The device at a path. -/
def device? (t : FileTree) (path : String) : Option Device :=
  match t.resolve path with
  | .error _ => none
  | .ok target =>
    match t.node? target.location with
    | some (.device kind) => some kind
    | _ => none

/-- The path leads to a file. -/
def isFile (t : FileTree) (path : String) : Bool :=
  match t.resolve path with
  | .error _ => false
  | .ok target =>
    match t.node? target.location with
    | some (.file ..) => !target.slash
    | _ => false

/-- The bytes of the program that a name starts. A name with a slash is a path, and the file there
must be executable; no other name is known, and the names of directories and overlong names are
refused instead. -/
def program (t : FileTree) (name : String) : Except FileError ByteArray :=
  if '/' ∉ name.toList then
    .error (if name = "." ∨ name = ".." then .permissionDenied
      else if 255 < name.utf8ByteSize then .nameTooLong
      else .notFound)
  else do
    let target ← t.resolve name
    match t.node? target.location with
    | none => .error .notFound
    | some .directory => .error .permissionDenied
    | some (.device _) => .error (if target.slash then .notADirectory else .permissionDenied)
    | some (.file bytes executable) =>
      if target.slash then .error .notADirectory
      else if executable then .ok bytes
      else .error .permissionDenied

end FileTree

end ExactCover
