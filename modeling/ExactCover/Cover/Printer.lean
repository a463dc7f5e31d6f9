/-!
# Printing a cover

The selected subsets in brace notation, one on a line, below a banner.
-/

namespace ExactCover.Cover

/-- The line above and below the title. -/
def rule : String :=
  "##################################################################"

/-- The title of the banner. -/
def title : String :=
  "###########[ Human readable result of the exact cover ]###########"

/-- The lines above the subsets. -/
def banner : List String :=
  ["", rule, title, rule, "", "Included sets: "]

/-- A subset in brace notation. -/
def subsetLine (tokens : List String) : String :=
  "\x7b" ++ " ".intercalate tokens ++ "\x7d"

/-- The text of a selection; every line ends with a line feed. -/
def print (selection : List (List String)) : String :=
  String.join ((banner ++ selection.map subsetLine).map (· ++ "\n"))

end ExactCover.Cover
