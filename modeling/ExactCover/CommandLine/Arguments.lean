import ExactCover.Text.Decimal

/-!
# Command line arguments

A program takes options, each at most once, and nothing else. An option has a long name and perhaps
a letter. Its value is attached (`--name=value`, `-nvalue`, `-n=value`) or the next argument, which
then must not begin with a dash unless it is a dash alone. A flag takes no value.
-/

namespace ExactCover.CommandLine

/-- An option of a program. -/
structure OptionSpec where
  name : String
  letter : Option Char
  /-- The word that stands for the value in the help text; a flag has none. -/
  valueName : Option String
  /-- The value when the option is absent, as the help text shows it. -/
  standard : Option String
  help : String
  /-- The values that the option accepts. -/
  accepts : String → Bool

/-- What is wrong with arguments. -/
inductive UsageError where
  | unknownOption (argument : String)
  | unexpectedArgument (argument : String)
  | missingValue (name : String)
  | unexpectedValue (name : String)
  | repeated (name : String)
  | invalidValue (name value : String)
  deriving DecidableEq, Repr

/-- The error in words. -/
def UsageError.message : UsageError → String
  | unknownOption argument | unexpectedArgument argument =>
    "unexpected argument '" ++ argument ++ "' found"
  | missingValue name => "a value is required for '--" ++ name ++ "' but none was supplied"
  | unexpectedValue name => "'--" ++ name ++ "' takes no value"
  | repeated name => "the argument '--" ++ name ++ "' cannot be used multiple times"
  | invalidValue name value => "invalid value '" ++ value ++ "' for '--" ++ name ++ "'"

/-- The values given to options, by name. -/
abbrev Given := List (String × String)

/-- What arguments ask for. -/
inductive Request where
  | help
  | run (given : Given)
  deriving DecidableEq, Repr

/-- An argument by its form. -/
inductive Argument where
  /-- `--name` or `--name=value`. -/
  | long (name : String) (attached : Option String)
  /-- `-n`, `-nvalue` or `-n=value`. -/
  | short (letter : Char) (attached : Option String)
  /-- `--`, after which no options follow. -/
  | endOfOptions
  | plain
  deriving DecidableEq, Repr

/-- The form of an argument. -/
def Argument.ofString (argument : String) : Argument :=
  match argument.toList with
  | ['-', '-'] => .endOfOptions
  | '-' :: '-' :: cs =>
    let attached := match cs.dropWhile (· != '=') with
      | [] => none
      | _ :: value => some (String.ofList value)
    .long (String.ofList (cs.takeWhile (· != '='))) attached
  | '-' :: letter :: cs =>
    let attached := match cs with
      | [] => none
      | '=' :: value => some (String.ofList value)
      | value => some (String.ofList value)
    .short letter attached
  | _ => .plain

/-- The argument can be the value of the option before it. -/
def isValue (argument : String) : Bool :=
  argument == "-" || argument.toList.head? != some '-'

/-- Adds the value of an option to those given before. -/
def give (spec : OptionSpec) (value : String) (given : Given) : Except UsageError Given :=
  if given.any (·.1 == spec.name) then .error (.repeated spec.name)
  else if spec.accepts value then .ok (given ++ [(spec.name, value)])
  else .error (.invalidValue spec.name value)

/-- The option that an argument names, with the value attached to it. -/
def findSpec (specs : List OptionSpec) : Argument → Option (OptionSpec × Option String)
  | .long name attached => (specs.find? (·.name == name)).map (·, attached)
  | .short letter attached => (specs.find? (·.letter == some letter)).map (·, attached)
  | .endOfOptions | .plain => none

/-- The argument asks for help. -/
def asksForHelp : Argument → Bool
  | .long name attached => name == "help" && attached.isNone
  | .short letter _ => letter == 'h'
  | .endOfOptions | .plain => false

/-- Reads arguments from left to right; the first error or request for help decides. -/
def scan (specs : List OptionSpec) (given : Given) : List String → Except UsageError Request
  | [] => .ok (.run given)
  | argument :: rest =>
    let form := Argument.ofString argument
    if form = .endOfOptions then
      match rest with
      | [] => .ok (.run given)
      | next :: _ => .error (.unexpectedArgument next)
    else if form = .plain then .error (.unexpectedArgument argument)
    else if asksForHelp form then .ok .help
    else
      match findSpec specs form with
      | none => .error (.unknownOption argument)
      | some (spec, attached) =>
        match spec.valueName, attached with
        | none, some _ => .error (.unexpectedValue spec.name)
        | none, none => do scan specs (← give spec "" given) rest
        | some _, some value => do scan specs (← give spec value given) rest
        | some _, none =>
          match rest with
          | [] => .error (.missingValue spec.name)
          | next :: rest =>
            if isValue next then do scan specs (← give spec next given) rest
            else .error (.missingValue spec.name)

/-- The value given to an option. -/
def Given.value? (given : Given) (name : String) : Option String :=
  (given.find? (·.1 == name)).map (·.2)

/-- The line of an option in the help text, its left and its right column. -/
def OptionSpec.helpColumns (spec : OptionSpec) : String × String :=
  let letter := match spec.letter with
    | some c => "-" ++ c.toString ++ ", "
    | none => "    "
  let value := (spec.valueName.map fun v => " <" ++ v ++ ">").getD ""
  let standard := (spec.standard.map fun s => " [default: " ++ s ++ "]").getD ""
  (letter ++ "--" ++ spec.name ++ value, spec.help ++ standard)

/-- The help text of a program. -/
def helpText (program : String) (specs : List OptionSpec) : String :=
  let rows := specs.map OptionSpec.helpColumns ++ [("-h, --help", "Print help")]
  let width := (rows.map (·.1.length)).foldl max 0
  let row := fun (left, right) =>
    "  " ++ left ++ String.ofList (List.replicate (width - left.length) ' ') ++ "  " ++ right ++ "\n"
  "Usage: " ++ program ++ " [OPTIONS]\n\nOptions:\n" ++ String.join (rows.map row)

end ExactCover.CommandLine
