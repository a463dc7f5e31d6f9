import ExactCover.Cnf.Literal
import ExactCover.Text.Blank
import ExactCover.Text.Decimal

/-!
# Value lines

A value line of a solver is the letter `v` and one or more integers, each after spaces or tabs. An
integer other than zero is a literal and zero closes the model. As everywhere, a reader that fails
answers with the text from the place where it gave up.
-/

namespace ExactCover.ValueLine

open Text

/-- What an integer of a value line says. -/
inductive Value where
  /-- Zero, which closes the model. -/
  | sentinel
  | literal (l : Literal)
  deriving DecidableEq, Repr

/-- The meaning of an integer, if it fits into 32 bits with sign. -/
def Value.ofInt? (z : Int) : Option Value :=
  if z = 0 then some .sentinel else (Literal.ofInt? z).map .literal

/-- The text after a minus sign, if there is one. -/
def dropMinus : List Char → List Char
  | '-' :: cs => cs
  | cs => cs

/-- The integer with the digits `ds`, negative if the text `cs` that they come from has a minus
sign. -/
def signedBy (cs ds : List Char) : Int :=
  if cs.head? = some '-' then -(Decimal.value ds : Int) else Decimal.value ds

/-- Reads an integer that begins right here: perhaps a minus sign, then the longest run of digits.
Without digits it gives up after the sign, with a number that does not fit at its start. -/
def readValue (cs : List Char) : Except (List Char) (Value × List Char) :=
  match (dropMinus cs).takeWhile Char.isDigit with
  | [] => .error (dropMinus cs)
  | d :: ds =>
    match Value.ofInt? (signedBy cs (d :: ds)) with
    | some v => .ok (v, (dropMinus cs).dropWhile Char.isDigit)
    | none => .error cs

/-- A sign takes up text or is not there. -/
theorem length_dropMinus_le (cs : List Char) : (dropMinus cs).length ≤ cs.length := by
  unfold dropMinus
  split <;> simp

/-- An integer takes up text. -/
theorem length_lt_of_readValue {cs rest : List Char} {v : Value}
    (h : readValue cs = .ok (v, rest)) : rest.length < cs.length := by
  unfold readValue at h
  split at h
  · cases h
  · rename_i d ds e
    split at h
    · simp only [Except.ok.injEq, Prod.mk.injEq] at h
      have split := congrArg List.length
        (List.takeWhile_append_dropWhile (p := Char.isDigit) (l := dropMinus cs))
      have := length_dropMinus_le cs
      rw [e, List.length_append, h.2, List.length_cons] at split
      omega
    · cases h

/-- The integers from here on, each after spaces or tabs, and the text after the last of them. -/
def readValues (cs : List Char) : List Value × List Char :=
  if cs.head?.any isInlineSpacing then
    match _h : readValue (cs.dropWhile isInlineSpacing) with
    | .ok (v, rest) =>
      let (vs, stuck) := readValues rest
      (v :: vs, stuck)
    | .error _ => ([], cs)
  else
    ([], cs)
termination_by cs.length
decreasing_by
  have := length_lt_of_readValue _h
  have := (List.dropWhile_suffix isInlineSpacing (l := cs)).length_le
  omega

/-- Reads the part of a value line after the letter. The first integer must be there; after the last
one only spaces and tabs may follow. -/
def readBody (cs : List Char) : Except (List Char) (List Value) :=
  if cs.head?.any isInlineSpacing then
    match readValue (cs.dropWhile isInlineSpacing) with
    | .error stuck => .error stuck
    | .ok (v, rest) =>
      let (vs, after) := readValues rest
      match after.dropWhile isInlineSpacing with
      | [] => .ok (v :: vs)
      | stuck => .error stuck
  else
    .error cs

/-- Reads a value line. -/
def read : List Char → Except (List Char) (List Value)
  | 'v' :: cs => readBody cs
  | cs => .error cs

end ExactCover.ValueLine
