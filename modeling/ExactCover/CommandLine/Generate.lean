import ExactCover.CommandLine.Session
import ExactCover.Generator.Printer
import ExactCover.Random.ChaCha

/-!
# The generating program

Writes a random instance to a file. The same seed gives the same instance; without one the seed is
left to chance.
-/

namespace ExactCover.CommandLine.Generate

/-- What the program is asked to do. -/
structure Options where
  size : Nat := 5
  multiplier : Nat := 1
  guaranteed : Bool := false
  seed : Option UInt64 := none
  output : String := "input.in"
  deriving DecidableEq, Repr

/-- The greatest number that an option takes. -/
def maxNumber : Nat := 18446744073709551615

/-- The number that a text states. -/
def number? (text : String) : Option Nat :=
  Text.Decimal.unsigned? maxNumber text.toList

/-- An option whose value is a number. -/
def numberSpec (name valueName : String) (standard : Option Nat) (help : String) : OptionSpec where
  name := name
  letter := none
  valueName := some valueName
  standard := standard.map fun n => toString n
  help := help
  accepts := fun value => (number? value).isSome

/-- The options of the program. -/
def specs : List OptionSpec :=
  let standard : Options := {}
  [numberSpec "size" "SIZE" standard.size "Number of elements in the ground set",
   numberSpec "multiplier" "MULTIPLIER" standard.multiplier
     "How many random subsets to create per ground set element",
   { name := "guaranteed", letter := none, valueName := none, standard := none,
     help := "Insert a random partition of the ground set so the instance has an exact cover",
     accepts := fun _ => true },
   numberSpec "seed" "SEED" none "Seed for the random number generator, random if omitted",
   { name := "output", letter := some 'o', valueName := some "OUTPUT", standard := standard.output,
     help := "File to write the instance to", accepts := fun _ => true }]

/-- The options that given values state; an absent one keeps its standard value. -/
def Options.ofGiven (given : Given) : Options :=
  let standard : Options := {}
  let number? (name : String) := (given.value? name).bind number?
  { size := (number? "size").getD standard.size
    multiplier := (number? "multiplier").getD standard.multiplier
    guaranteed := (given.value? "guaranteed").isSome
    seed := (number? "seed").map Nat.toUInt64
    output := (given.value? "output").getD standard.output }

/-- What to generate. -/
def Options.config (o : Options) : Generator.Config :=
  { groundSize := o.size, multiplier := o.multiplier, guaranteed := o.guaranteed }

/-- How many words a single draw may take. A word is rejected with a chance of less than a half. -/
def patience : Nat := 65536

section Session

variable {m : Type → Type} [Monad m] [Host m]

/-- Does what the options ask for. -/
def session (o : Options) : ExceptT Failure m Unit := do
  let seed ← match o.seed with
    | some seed => pure seed
    | none => ExceptT.lift Host.chance
  let (g, _) ← orFail .generator
    (Generator.generateInMemory patience o.config (Random.ChaCha.Stream.ofSeed seed))
  record (.familyGenerated g.subsets.length g.groundSize)
  writeFile o.output g.render.toUTF8
  record (.generatedWritten g.subsets.length g.groundSize o.output)

/-- Runs the program on its arguments. -/
def run : List String → m Outcome :=
  start "excover-generate" specs fun given => session (.ofGiven given)

end Session

end ExactCover.CommandLine.Generate
