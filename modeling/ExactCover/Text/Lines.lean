import ExactCover.Text.Blank

/-!
# Lines of a text

A line ends at a line feed, together with one carriage return directly before it. What follows the
last line feed is a line of its own unless it is empty, and it keeps its carriage returns.
-/

namespace ExactCover.Text

/-- The text without one carriage return at its end. -/
def dropCarriageReturn (cs : List Char) : List Char :=
  if cs.getLast? = some '\r' then cs.dropLast else cs

/-- The lines of a text, without what ends them. -/
def lines (cs : List Char) : List (List Char) :=
  let pieces := cs.splitOn '\n'
  let last := pieces.getLastD []
  pieces.dropLast.map dropCarriageReturn ++ if last.isEmpty then [] else [last]

/-- The text with a bare line feed at the end of every line. -/
def echo (text : String) : String :=
  String.join ((lines text.toList).map fun line => String.ofList line ++ "\n")

/-- The text before the first line feed, and the text after it. -/
def cutFirstLine (cs : List Char) : List Char × List Char :=
  (cs.takeWhile (· != '\n'), (cs.dropWhile (· != '\n')).tail)

/-- The first line that is not blank, trimmed. -/
def firstWrittenLine? (cs : List Char) : Option (List Char) :=
  ((lines cs).map trim).find? (!·.isEmpty)

/-- A short quotation of the text at which reading gave up: its first line that is not blank. -/
def excerpt (rest : List Char) : String :=
  match firstWrittenLine? rest with
  | some line => String.ofList line
  | none => "end of input"

end ExactCover.Text
