import ExactCover.Brace.Group

/-!
# Lines and families of brace groups

The two parts of an instance text: a line that holds one group, and a family, which is a run of
groups between braces of its own, as in `{ { a b } { c } }`. Both must end where the text ends,
spacing aside.
-/

namespace ExactCover.Brace

/-- Accepts `a` if only spacing follows it. -/
def atEnd {α : Type} (a : α) (rest : List Char) : Except (List Char) α :=
  match skipSpacing rest with
  | [] => .ok a
  | stuck => .error stuck

/-- Reads a text that is one group. -/
def readSingle (cs : List Char) : Except (List Char) Group :=
  match readGroup (skipSpacing cs) with
  | .ok (g, rest) => atEnd g rest
  | .error stuck => .error stuck

/-- The groups from here on, and the text after the spacing that follows the last of them. A group
that fails ends the run before its opening brace. -/
def readGroups (cs : List Char) : List Group × List Char :=
  match _h : readGroup (skipSpacing cs) with
  | .ok (g, rest) =>
    let (gs, stuck) := readGroups rest
    (g :: gs, stuck)
  | .error _ => ([], skipSpacing cs)
termination_by cs.length
decreasing_by
  have := length_lt_of_readGroup _h
  have := (List.dropWhile_suffix Text.isSpacing (l := cs)).length_le
  simp only [skipSpacing] at *
  omega

/-- Reads a text that is one family. -/
def readFamily (cs : List Char) : Except (List Char) (List Group) :=
  match skipSpacing cs with
  | '{' :: inner =>
    match readGroups inner with
    | (gs, '}' :: rest) => atEnd gs rest
    | (_, stuck) => .error stuck
  | stuck => .error stuck

end ExactCover.Brace
