import ExactCover.Cnf.Formula

/-!
# The DIMACS format

The text of a formula: a header with the number of variables and the number of clauses, then one
line for each clause with its literals and a closing zero, all separated by single blanks. The empty
clause is a line with the zero alone.
-/

namespace ExactCover.Formula

/-- The line that opens the text. -/
def dimacsHeader (f : Formula) : String :=
  "p cnf " ++ toString f.vars ++ " " ++ toString f.size

/-- The line of a clause. -/
def dimacsClause (c : Clause) : String :=
  " ".intercalate (c.map (fun l => toString l.raw) ++ ["0"])

/-- The lines of the text. -/
def dimacsLines (f : Formula) : List String :=
  f.dimacsHeader :: f.clauses.map dimacsClause

/-- The text of a formula; every line ends with a line feed. -/
def dimacs (f : Formula) : String :=
  String.join (f.dimacsLines.map (· ++ "\n"))

end ExactCover.Formula
