import ExactCover.Log.Event
import ExactCover.Pattern.Check
import ExactCover.Text.Decimal
import ExactCover.Text.Slice

/-!
# Log directives

A directive sets the level up to which the events of the targets that begin with its path are logged:
`path`, `path=level` or a level alone, which is for all targets. Without a level it logs all events.
Brackets after the path can name a span, the work during which an event occurs, and in braces a field
that an event must have, perhaps with a pattern for its value. The only field of an event is its
message, and the programs have no spans; so a directive with a span or with a value has no effect.

The parts of a word are found in the word without the blanks around it, but cut from the word with
them. So after a leading blank no level is understood, and a cut can fall inside a character.
-/

namespace ExactCover.Log

/-- The level up to which the events of the targets under a path are logged. -/
structure Directive where
  path : List Char
  /-- The field that an event must have. -/
  field? : Option (List Char)
  /-- The rank of the level, 0 for silence. -/
  rank : Nat
  deriving DecidableEq, Repr

/-- Why a word is no directive. -/
inductive DirectiveError where
  | malformed
  | unknownLevel
  | badPattern (reason : Pattern.Error)
  /-- A cut falls inside a character. No program runs with such a word. -/
  | cutCharacter
  deriving DecidableEq, Repr

/-- The error in words. -/
def DirectiveError.message : DirectiveError → String
  | malformed => "invalid filter directive"
  | unknownLevel =>
    "error parsing level filter: expected one of \"off\", \"error\", \"warn\", \"info\", " ++
      "\"debug\", \"trace\", or a number 0-5"
  | badPattern reason => "invalid field filter: " ++ reason.message
  | cutCharacter => "a cut falls inside a character"

/-- The names of the levels from rank 0 on. -/
def levelNames : List String :=
  ["off", "error", "warn", "info", "debug", "trace"]

/-- The rank that a word stands for: a number up to 5 or the name of a level in letters of any
case. -/
def rankOf? (word : List Char) : Option Nat :=
  (Text.Decimal.unsigned? Level.trace.rank word).or
    (levelNames.findIdx? fun name => word.map Char.toLower = name.toList)

/-- The rank that a level after an equals sign stands for. -/
def rankAfterEquals (level : List Char) : Except DirectiveError Nat :=
  if level.isEmpty then .ok Level.trace.rank
  else
    match rankOf? level with
    | some rank => .ok rank
    | none => .error .unknownLevel

/-- A character that a word can begin with. -/
def beginsWord (c : Char) : Bool :=
  c ∈ ['-', ':', '_', '['] || Text.isAlphanumeric c

namespace Directive

/-- The part of a word between two positions. -/
def cut (word : List Char) (start stop : Nat) : Except DirectiveError (List Char) :=
  match Text.slice? start stop word with
  | some part => .ok part
  | none => .error .cutCharacter

/-- The rank that the level from a position on sets. -/
def rankFrom (word : List Char) (start : Nat) : Except DirectiveError Nat :=
  match Text.dropBytes? start word with
  | some level => rankAfterEquals level
  | none => .error .cutCharacter

/-- The rank that the text behind a closing bracket sets, which begins at a position. -/
def rankAfterBracket (word : List Char) (start : Nat) : List Char → Except DirectiveError Nat
  | [] => .ok Level.trace.rank
  | '=' :: _ => rankFrom word (start + 1)
  | _ => .error .malformed

/-- The name of a field, if it has no value. A value is a number or a pattern. -/
def fieldName? (field : List Char) : Except DirectiveError (Option (List Char)) :=
  match field.splitOn '=' with
  | _ :: value :: _ =>
    if Text.Decimal.isReal value then .ok none
    else
      match Pattern.check value with
      | .ok () => .ok none
      | .error reason => .error (.badPattern reason)
  | _ => .ok (some field)

/-- The directive with a path and the text behind an opening bracket, which begins at a position. It
is nothing if it has no effect. -/
def ofBracket (word path : List Char) (start : Nat) (inside : List Char) :
    Except DirectiveError (Option Directive) := do
  let span := inside.takeWhile fun c => c != ']' && c != '\x7b'
  let spanStop := start + Text.byteLength span
  match inside.drop span.length with
  | [] => throw .malformed
  | ']' :: rest =>
    let _ ← cut word start spanStop
    let _ ← rankAfterBracket word (spanStop + 1) rest
    return none
  | _ :: braced =>
    let spanName ← cut word start spanStop
    let field := braced.takeWhile (· != '\x7d')
    let fieldStop := spanStop + 1 + Text.byteLength field
    match braced.drop field.length with
    | [] => throw .malformed
    | _ :: closing =>
      let fieldText ← cut word (spanStop + 1) fieldStop
      if fieldText.isEmpty then
        throw .malformed
      let name? ← fieldName? fieldText
      match closing with
      | ']' :: rest =>
        let rank ← rankAfterBracket word (fieldStop + 2) rest
        return if spanName.isEmpty then name?.map (⟨path, some ·, rank⟩) else none
      | _ => throw .malformed

/-- The directive that a word states, or nothing if it has no effect. -/
def ofWord (word : List Char) : Except DirectiveError (Option Directive) := do
  let bare := Text.trim word
  if !bare.head?.any beginsWord then
    throw .malformed
  let path := bare.takeWhile fun c => c != '=' && c != '['
  let stop := Text.byteLength path
  match bare.drop path.length with
  | [] =>
    match rankOf? word with
    | some rank => return some ⟨[], none, rank⟩
    | none => return some ⟨word, none, Level.trace.rank⟩
  | '=' :: _ => return some ⟨← cut word 0 stop, none, ← rankFrom word (stop + 1)⟩
  | _ :: inside => ofBracket word (← cut word 0 stop) (stop + 1) inside

/-- The directive applies to the events of a target. -/
def applies (d : Directive) (target : Target) : Bool :=
  d.path.isPrefixOf target.path.toList && d.field?.all (· == "message".toList)

/-- The second directive takes precedence over the first where both apply. -/
def yieldsTo (d d' : Directive) : Bool :=
  d.path.length < d'.path.length ||
    d.path.length == d'.path.length && (d.field?.isNone || d'.field?.isSome)

end Directive

end ExactCover.Log
