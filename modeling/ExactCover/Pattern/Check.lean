import ExactCover.Pattern.CharSet
import ExactCover.Text.Letter

/-!
# Well-formed patterns

`check` says whether a text is a pattern that a matching automaton can be built for. Nothing is
matched here. A pattern is a sequence of atoms, sets and groups, perhaps repeated, in alternatives
divided by bars. A group can have a name of its own or turn switches, and the switches hold until the
group around them ends. Parts may be nested 250 deep.
-/

namespace ExactCover.Pattern

/-- Why there is no automaton for a text. -/
inductive Error where
  | malformed
  /-- The automaton reads bytes and cannot tell where words of all scripts begin and end. -/
  | wordBoundary
  deriving DecidableEq, Repr

/-- The error in words. -/
def Error.message : Error → String
  | malformed => "error building NFA"
  | wordBoundary =>
    "unsupported regex feature for DFAs: cannot build DFAs for regexes with Unicode word " ++
      "boundaries; switch to ASCII word boundaries, or heuristically enable Unicode word " ++
      "boundaries or use a different regex engine"

/-- What stands in a sequence. -/
inductive Item where
  /-- A part that can be repeated, of a height. -/
  | part (height : Nat)
  /-- A turn of switches. -/
  | turn

/-- The height of an item. -/
def Item.height : Item → Nat
  | part height => height
  | turn => 0

/-- A group whose closing parenthesis has not been read, or the whole pattern. -/
structure Group where
  switches : Switches
  /-- The items since the last bar, the newest first. -/
  items : List Item := []
  /-- The heights of the alternatives before the last bar. -/
  alternatives : List Nat := []

namespace Group

/-- The group with one more item. -/
def add (g : Group) (item : Item) : Group :=
  { g with items := item :: g.items }

/-- The height of the items since the last bar. -/
def lastHeight (g : Group) : Nat :=
  heightOfAll (g.items.map Item.height)

/-- The height of what has been read of the group. -/
def height (g : Group) : Nat :=
  heightOfAll (g.lastHeight :: g.alternatives)

end Group

/-- How far a pattern has been read. -/
structure State where
  group : Group := { switches := {} }
  /-- The groups around the current one, the innermost first. -/
  outer : List Group := []
  /-- The names of groups so far. -/
  names : List (List Char) := []
  /-- A word boundary of a pattern on characters has been read. -/
  wordBoundary : Bool := false

/-- The name of a group is well formed. -/
def isGroupName : List Char → Bool
  | [] => false
  | c :: cs =>
    (c == '_' || Text.isAlphabetic c) &&
      cs.all fun c => c ∈ ['_', '.', '[', ']'] || Text.isAlphanumeric c

/-- The letters of the switches. -/
def switchLetters : List Char :=
  "imsURux".toList

/-- The text turns switches: letters to turn on and, after a dash, letters to turn off. No letter
stands twice, and one follows the dash. -/
def isTurn (cs : List Char) : Bool :=
  cs.all (fun c => c == '-' || c ∈ switchLetters) && cs.Nodup && cs.getLast? != some '-'

/-- The switches after a turn. -/
def Switches.turn (s : Switches) (cs : List Char) : Switches :=
  let on := cs.takeWhile (· != '-')
  let value (letter : Char) (before : Bool) := if letter ∈ cs then decide (letter ∈ on) else before
  { ignoreCase := value 'i' s.ignoreCase
    unicode := value 'u' s.unicode
    verbose := value 'x' s.verbose }

namespace State

/-- The state with one more item in the current group. -/
def add (s : State) (item : Item) : State :=
  { s with group := s.group.add item }

/-- The state at the start of a group within the current one. -/
def enter (s : State) (switches : Switches) : State :=
  { s with group := { switches }, outer := s.group :: s.outer }

/-- Reads what follows an opening parenthesis up to the first item of the group. A turn without items
is a group of its own. -/
def readOpening (s : State) (cs : List Char) : Option (State × List Char) :=
  let named (cs : List Char) : Option (State × List Char) :=
    let name := cs.takeWhile (· != '>')
    match cs.drop name.length with
    | _ :: rest =>
      if isGroupName name && name ∉ s.names then
        some ({ s with names := name :: s.names }.enter s.group.switches, rest)
      else
        none
    | [] => none
  match s.group.switches.skip cs with
  | '?' :: '=' :: _ | '?' :: '!' :: _ | '?' :: '<' :: '=' :: _ | '?' :: '<' :: '!' :: _ => none
  | '?' :: 'P' :: '<' :: cs | '?' :: '<' :: cs => named cs
  | '?' :: cs =>
    let turn := cs.takeWhile fun c => c != ':' && c != ')'
    let switches := s.group.switches.turn turn
    match isTurn turn, cs.drop turn.length with
    | true, ':' :: rest => some (s.enter switches, rest)
    | true, ')' :: rest =>
      if turn.isEmpty then none
      else some ({ s with group := { s.group with switches } }.add .turn, rest)
    | _, _ => none
  | cs => some (s.enter s.group.switches, cs)

/-- Reads an atom that stands on its own. -/
def addAtom (s : State) (atom : Atom) : Option State :=
  if s.group.switches.allows atom then
    let boundary := s.group.switches.unicode && atom == .place true
    some { s.add (.part 0) with wordBoundary := s.wordBoundary || boundary }
  else
    none

/-- Reads a part of a pattern that begins with the given character. -/
def step (s : State) (c : Char) (rest : List Char) : Option (State × List Char) :=
  if c = '(' then s.readOpening rest
  else if c = ')' then
    match s.outer with
    | next :: outer =>
      some ({ s with group := next.add (.part (s.group.height + 1)), outer }, rest)
    | [] => none
  else if c = '|' then
    let group : Group :=
      { switches := s.group.switches, alternatives := s.group.lastHeight :: s.group.alternatives }
    some ({ s with group }, rest)
  else if c = '[' then
    (readSet s.group.switches rest).map fun (height, rest) => (s.add (.part height), rest)
  else if c ∈ ['?', '*', '+'] then
    match s.group.items with
    | .part height :: items =>
      let group := { s.group with items := .part (height + 1) :: items }
      some ({ s with group }, if rest.head? = some '?' then rest.tail else rest)
    | _ => none
  else if c = '\x7b' then none
  else if c = '\\' then do
    let (atom, rest) ← readEscape s.group.switches rest
    return (← s.addAtom atom, rest)
  else if c = '.' then
    if s.group.switches.unicode then some (s.add (.part 0), rest) else none
  else if c ∈ ['^', '$'] then some (s.add (.part 0), rest)
  else (s.addAtom (.literal c false)).map (·, rest)

/-- Reads a pattern to its end. The fuel is more than the number of characters. -/
def readAll : (fuel : Nat) → State → List Char → Option State
  | 0, _, _ => none
  | fuel + 1, s, cs =>
    match s.group.switches.skip cs with
    | [] => if s.outer.isEmpty then some s else none
    | c :: rest =>
      match s.step c rest with
      | some (s, rest) => readAll fuel s rest
      | none => none

end State

/-- How deep parts may be nested. -/
def maxHeight : Nat := 250

/-- Says whether there is an automaton for a text. -/
def check (cs : List Char) : Except Error Unit :=
  match State.readAll (cs.length + 1) {} cs with
  | none => .error .malformed
  | some s =>
    if maxHeight < s.group.height then .error .malformed
    else if s.wordBoundary then .error .wordBoundary
    else .ok ()

end ExactCover.Pattern
