import ExactCover.Pattern.Atom

/-!
# Sets of characters in patterns

A set is written in brackets: characters, ranges of them, named sets and sets within it, also joined
by the operators `&&`, `--` and `~~`. Reading a set yields its height, how deep sets and their
operators are nested in it. A set on bytes must not be negated, since its complement holds bytes that
are no characters.
-/

namespace ExactCover.Pattern

/-- A set whose closing bracket has not been read. -/
structure OpenSet where
  /-- The heights of the members since the last operator. -/
  members : List Nat := []
  /-- The height of what stands before the last operator. -/
  left : Option Nat := none

/-- The height of several parts that are put together: one part is not raised. -/
def heightOfAll : List Nat → Nat
  | [] => 0
  | [h] => h
  | hs => hs.foldl max 0 + 1

namespace OpenSet

/-- The set with one more member. -/
def add (o : OpenSet) (height : Nat) : OpenSet :=
  { o with members := height :: o.members }

/-- The height of what has been read of the set. -/
def height (o : OpenSet) : Nat :=
  match o.left with
  | none => heightOfAll o.members
  | some left => max left (heightOfAll o.members) + 1

/-- The set after an operator. -/
def afterOperator (o : OpenSet) : OpenSet :=
  { left := some o.height }

end OpenSet

/-- The names of the sets of ASCII characters. -/
def asciiSetNames : List String :=
  ["alnum", "alpha", "ascii", "blank", "cntrl", "digit", "graph", "lower", "print", "punct",
   "space", "upper", "word", "xdigit"]

/-- Reads a named set, as in `[:alpha:]`, after its opening bracket, and whether it is negated. -/
def readNamedSet : List Char → Option (Bool × List Char)
  | ':' :: cs =>
    let (negated, cs) := match cs with
      | '^' :: cs => (true, cs)
      | cs => (false, cs)
    let name := cs.takeWhile (· != ':')
    match cs.drop name.length with
    | ':' :: ']' :: rest =>
      if String.ofList name ∈ asciiSetNames then some (negated, rest) else none
    | _ => none
  | _ => none

/-- A named set is allowed. -/
def Switches.allowsNamedSet (s : Switches) (negated : Bool) : Bool :=
  if s.unicode then !s.ignoreCase else !negated

/-- Reads an atom in a set. -/
def readSetAtom (s : Switches) : List Char → Option (Atom × List Char)
  | [] => none
  | '\\' :: cs => readEscape s cs
  | c :: cs => some (.literal c false, cs)

/-- Reads a member of a set: an atom, or a range of two characters that ascend. A dash before another
dash or a closing bracket makes no range. -/
def readMember (s : Switches) (cs : List Char) : Option (List Char) := do
  let (first, rest) ← readSetAtom s cs
  if !s.allowsInSet first then
    none
  match s.skip rest with
  | '-' :: after =>
    if s.glance? after ∈ [some ']', some '-'] then
      some rest
    else
      let (last, rest) ← readSetAtom s (s.skip after)
      match first, last with
      | .literal low _, .literal high _ =>
        if s.allowsInSet last && low.toNat ≤ high.toNat then some rest else none
      | _, _ => none
  | _ => some rest

/-- Reads what follows an opening bracket up to the first member. -/
def readNegation (s : Switches) (cs : List Char) : Option (List Char) :=
  match s.skip cs with
  | '^' :: rest => if s.unicode then some (s.skip rest) else none
  | rest => some rest

/-- Reads the members of a set, and the sets within it, up to its closing bracket. At the start of a
set dashes stand for themselves, and so does a closing bracket that is the first member. The fuel is
more than the number of characters. -/
def readMembers (s : Switches) :
    (fuel : Nat) → (atStart : Bool) → OpenSet → List OpenSet → List Char → Option (Nat × List Char)
  | 0, _, _, _, _ => none
  | fuel + 1, atStart, top, outer, cs =>
    match s.skip cs with
    | [] => none
    | c :: rest =>
      if atStart && (c == '-' || c == ']' && top.members.isEmpty) then
        if s.allowsInSet (.literal c false) then
          readMembers s fuel (c == '-') (top.add 0) outer rest
        else
          none
      else if c == '[' then
        match readNamedSet rest with
        | some (negated, rest) =>
          if s.allowsNamedSet negated then readMembers s fuel false (top.add 0) outer rest
          else none
        | none =>
          match readNegation s rest with
          | some rest => readMembers s fuel true {} (top :: outer) rest
          | none => none
      else if c == ']' then
        match outer with
        | [] => some (top.height + 1, rest)
        | next :: outer => readMembers s fuel false (next.add (top.height + 1)) outer rest
      else if (c == '&' || c == '-' || c == '~') && rest.head? == some c then
        readMembers s fuel false top.afterOperator outer rest.tail
      else
        match readMember s (c :: rest) with
        | some rest => readMembers s fuel false (top.add 0) outer rest
        | none => none

/-- Reads a set of characters after its opening bracket, and its height. -/
def readSet (s : Switches) (cs : List Char) : Option (Nat × List Char) := do
  readMembers s (cs.length + 1) true {} [] (← readNegation s cs)

end ExactCover.Pattern
