import ExactCover.Text.Blank

/-!
# Atoms of patterns

A pattern is a regular expression. Its atoms are the characters and escapes that stand for a
character, a set of characters or a place in the text. Which of them are allowed depends on switches
that the pattern itself can turn. A pattern works on characters or, with the Unicode switch off, on
bytes; then it must still match whole characters only. No tables of Unicode classes and letter cases
are at hand, so in a pattern on characters the sets that need them are refused.

The text of a pattern never holds a closing brace, since that ends the pattern. So what an opening
brace begins outside a set of characters is never complete.
-/

namespace ExactCover.Pattern

/-- The switches of a pattern. -/
structure Switches where
  ignoreCase : Bool := false
  unicode : Bool := true
  /-- Blanks and comments may stand between the parts. -/
  verbose : Bool := false
  deriving DecidableEq, Repr

/-- The text without the blanks and comments at its start. A comment ends with its line. -/
def skipBlanks : (inComment : Bool) → List Char → List Char
  | _, [] => []
  | true, c :: cs => skipBlanks (c != '\n') cs
  | false, c :: cs =>
    if Text.isWhiteSpace c then skipBlanks false cs
    else if c == '#' then skipBlanks true cs
    else c :: cs

/-- The text without what may stand between two parts. -/
def Switches.skip (s : Switches) (cs : List Char) : List Char :=
  if s.verbose then skipBlanks false cs else cs

/-- The first character after blanks, at most one number sign and blanks again. A number sign begins a
comment, but what is written in the comment counts here. -/
def glance? (cs : List Char) : Option Char :=
  match cs.dropWhile Text.isWhiteSpace with
  | '#' :: rest => (rest.dropWhile Text.isWhiteSpace).head?
  | rest => rest.head?

/-- The character by which a dash in a set is judged. -/
def Switches.glance? (s : Switches) (cs : List Char) : Option Char :=
  if s.verbose then Pattern.glance? cs else cs.head?

/-- The smallest parts of a pattern. -/
inductive Atom where
  /-- A character; `asByte` if it is written as a byte in two hexadecimal digits. -/
  | literal (c : Char) (asByte : Bool)
  /-- The digits, blanks or word characters, or all others. -/
  | set (negated : Bool)
  /-- A place in the text; `atWord` if it depends on where words begin and end. -/
  | place (atWord : Bool)
  deriving DecidableEq, Repr

/-- The value of a hexadecimal digit. -/
def hexDigit? (c : Char) : Option Nat :=
  if c.isDigit then some (c.toNat - '0'.toNat)
  else if 'a' ≤ c ∧ c ≤ 'f' then some (c.toNat - 'a'.toNat + 10)
  else if 'A' ≤ c ∧ c ≤ 'F' then some (c.toNat - 'A'.toNat + 10)
  else none

/-- Reads a fixed number of hexadecimal digits. -/
def readHex (s : Switches) : (digits value : Nat) → List Char → Option (Nat × List Char)
  | 0, value, cs => some (value, cs)
  | digits + 1, value, cs =>
    match s.skip cs with
    | [] => none
    | c :: rest => (hexDigit? c).bind fun d => readHex s digits (value * 16 + d) rest

/-- Reads a character that is written as its code point in a fixed number of digits. -/
def readCodePoint (s : Switches) (digits : Nat) (cs : List Char) : Option (Atom × List Char) := do
  let (value, rest) ← readHex s digits 0 cs
  if value.isValidChar then some (.literal (Char.ofNat value) (digits == 2), rest) else none

/-- The letters that stand for control characters after a backslash. -/
def controlLetters : List (Char × Char) :=
  [('a', '\x07'), ('f', '\x0c'), ('t', '\t'), ('n', '\n'), ('r', '\r'), ('v', '\x0b')]

/-- Reads what follows a backslash. Other ASCII characters than letters and digits stand for
themselves, and letters and digits without a meaning are refused. -/
def readEscape (s : Switches) : List Char → Option (Atom × List Char)
  | [] => none
  | c :: rest =>
    if c = 'x' then readCodePoint s 2 rest
    else if c = 'u' then readCodePoint s 4 rest
    else if c = 'U' then readCodePoint s 8 rest
    else if c ∈ ['d', 's', 'w'] then some (.set false, rest)
    else if c ∈ ['D', 'S', 'W'] then some (.set true, rest)
    else if c ∈ ['A', 'z'] then some (.place false, rest)
    else if c = 'b' then if rest.head? = some '\x7b' then none else some (.place true, rest)
    else if c ∈ ['B', '<', '>'] then some (.place true, rest)
    else if c.toNat < 0x80 && !c.isAlphanum then some (.literal c false, rest)
    else (controlLetters.lookup c).map fun control => (.literal control false, rest)

/-- The atom is allowed on its own. -/
def Switches.allows (s : Switches) : Atom → Bool
  | .literal c asByte => if s.unicode then !s.ignoreCase else !(asByte && 0x80 ≤ c.toNat)
  | .set negated => !s.unicode && !negated
  | .place _ => true

/-- The atom is allowed in a set of characters. -/
def Switches.allowsInSet (s : Switches) : Atom → Bool
  | .literal c _ => if s.unicode then !s.ignoreCase else c.toNat < 0x80
  | .set negated => !s.unicode && !negated
  | .place _ => false

end ExactCover.Pattern
