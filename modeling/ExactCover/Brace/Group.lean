import ExactCover.Text.Blank

/-!
# Brace groups

A group is a run of tokens between braces, as in `{ a b c }`. A token is a non-empty run of
characters that are neither white space nor braces. Between tokens, and next to the braces, stands
spacing: spaces, tabs, carriage returns and line feeds; any other white space is an error.

A reader gets the text from its place on and answers with what it read and the text that follows.
When it fails it answers with the text from the place where it gave up.
-/

namespace ExactCover.Brace

open Text

/-- A character that may be part of a token. -/
def isTokenChar (c : Char) : Bool :=
  !isWhiteSpace c && c != '{' && c != '}'

/-- A character that may stand between the braces of a group. -/
def isInnerChar (c : Char) : Bool :=
  isTokenChar c || isSpacing c

/-- The words of a text, which spacing separates. -/
def words (cs : List Char) : List (List Char) :=
  (cs.splitOnP isSpacing).filter (!·.isEmpty)

/-- The text from its first character on that is not spacing. -/
def skipSpacing (cs : List Char) : List Char :=
  cs.dropWhile isSpacing

/-- A brace group, kept as the text between its braces. -/
structure Group where
  inner : List Char
  deriving DecidableEq, Repr

/-- The tokens of a group, in order. -/
def Group.tokens (g : Group) : List String :=
  (words g.inner).map String.ofList

/-- Reads a group that begins right here. It gives up at a missing opening brace, or where the
longest run of tokens and spacing is not followed by a closing brace. -/
def readGroup : List Char → Except (List Char) (Group × List Char)
  | '{' :: cs =>
    match cs.dropWhile isInnerChar with
    | '}' :: rest => .ok (⟨cs.takeWhile isInnerChar⟩, rest)
    | stuck => .error stuck
  | stuck => .error stuck

/-- A group takes up text. -/
theorem length_lt_of_readGroup {cs rest : List Char} {g : Group}
    (h : readGroup cs = .ok (g, rest)) : rest.length < cs.length := by
  unfold readGroup at h
  split at h
  · rename_i cs
    split at h
    · rename_i rest' e
      simp only [Except.ok.injEq, Prod.mk.injEq] at h
      have := (List.dropWhile_suffix isInnerChar (l := cs)).length_le
      rw [e, h.2] at this
      simp only [List.length_cons] at this ⊢
      omega
    · cases h
  · cases h

end ExactCover.Brace
