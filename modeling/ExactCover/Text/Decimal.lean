/-!
# Decimal numbers in text

Reading of decimal numerals. A numeral is a non-empty run of ASCII digits; leading zeros are allowed.
Of real numbers only the form is checked.
Numerals are written by `Nat.repr` and `Int.repr`, and `value_toDigits` says that they read back.
-/

namespace ExactCover.Text.Decimal

/-- The value of a run of digits. -/
def value (ds : List Char) : Nat :=
  Nat.ofDigitChars 10 ds 0

/-- The value of a text made of digits only. -/
def natural? (cs : List Char) : Option Nat :=
  if !cs.isEmpty && cs.all Char.isDigit then some (value cs) else none

/-- A natural number up to `bound`, perhaps with a plus sign. -/
def unsigned? (bound : Nat) (cs : List Char) : Option Nat :=
  let digits := match cs with
    | '+' :: ds => ds
    | ds => ds
  (natural? digits).filter (· ≤ bound)

/-- An integer, perhaps with a sign. -/
def signed? : List Char → Option Int
  | '-' :: ds => (natural? ds).map fun n => -(n : Int)
  | '+' :: ds => (natural? ds).map Int.ofNat
  | ds => (natural? ds).map Int.ofNat

/-- An exponent: nothing, or the letter e and an integer. -/
def isExponent : List Char → Bool
  | [] => true
  | c :: cs => (c == 'e' || c == 'E') && (signed? cs).isSome

/-- A number without its sign: infinity, not a number, or digits with perhaps a point among them and
an exponent behind them. -/
def isMagnitude (cs : List Char) : Bool :=
  let whole := cs.takeWhile Char.isDigit
  let afterWhole := cs.drop whole.length
  let (fraction, rest) := match afterWhole with
    | '.' :: ds => (ds.takeWhile Char.isDigit, ds.dropWhile Char.isDigit)
    | ds => ([], ds)
  String.ofList (cs.map Char.toLower) ∈ ["inf", "infinity", "nan"] ||
    !(whole.isEmpty && fraction.isEmpty) && isExponent rest

/-- The text states a real number, perhaps with a sign. -/
def isReal : List Char → Bool
  | '+' :: cs | '-' :: cs => isMagnitude cs
  | cs => isMagnitude cs

/-- The numeral of a number reads back as that number. -/
theorem value_toDigits (n : Nat) : value (Nat.toDigits 10 n) = n :=
  Nat.ofDigitChars_toDigits (by decide) (by decide)

end ExactCover.Text.Decimal
