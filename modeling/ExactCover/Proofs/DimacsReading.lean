import ExactCover.Proofs.DimacsText
import ExactCover.Proofs.Storage
import ExactCover.Text.Decimal
import Mathlib.Data.List.Forall2

/-!
# What the DIMACS text says

The text of a formula says the number of its variables and clauses on the first line, and each line
after that is a clause: read between the blanks, its integers are the literals of the clause and then
a zero, the only one on the line (`integers?_dimacsClause`). Since the storage of a formula holds
nothing beyond its clauses, the text determines the formula as a value (`dimacs_reads_back`).
-/

namespace ExactCover.Formula
open Text

/-- The integers that stand between the blanks of a line, if nothing else stands there. -/
def integers? (line : List Char) : Option (List Int) :=
  (line.splitOn ' ').mapM Decimal.signed?

/-! ## Numerals -/

/-- The digits of a number read back as the number. -/
lemma natural?_toDigits (n : Nat) : Decimal.natural? (Nat.toDigits 10 n) = some n := by
  have digits : (Nat.toDigits 10 n).all Char.isDigit = true :=
    List.all_eq_true.mpr fun _ hc => Nat.isDigit_of_mem_toDigits (by decide) (by decide) hc
  have some : (Nat.toDigits 10 n).isEmpty = false :=
    List.isEmpty_eq_false_iff.mpr Nat.toDigits_ne_nil
  rw [Decimal.natural?, digits, some, Decimal.value_toDigits]
  rfl

/-- A numeral reads back as the number that it is written for. -/
lemma signed?_toString (z : Int) : Decimal.signed? (toString z).toList = some z := by
  cases z with
  | ofNat n =>
    have numeral : (toString (Int.ofNat n)).toList = Nat.toDigits 10 n := Nat.toList_repr
    have read := natural?_toDigits n
    rw [numeral]
    -- the first character is a digit and so no sign
    have unsigned : ∀ d ds, Nat.toDigits 10 n = d :: ds → d.isDigit = true := fun d ds e =>
      Nat.isDigit_of_mem_toDigits (by decide) (by decide) (e ▸ List.mem_cons_self)
    unfold Decimal.signed?
    split
    · rename_i ds e
      cases unsigned _ _ e
    · rename_i ds e
      cases unsigned _ _ e
    · rw [read]
      rfl
  | negSucc n =>
    have numeral : (toString (Int.negSucc n)).toList = '-' :: (toString (n + 1)).toList :=
      String.toList_append
    rw [numeral, Nat.toString_eq_repr, Nat.toList_repr, Decimal.signed?, natural?_toDigits]
    rfl

/-- Numerals read back one by one. -/
lemma mapM_signed?_toString (zs : List Int) :
    (zs.map fun z => (toString z).toList).mapM Decimal.signed? = some zs := by
  induction zs with
  | nil => rfl
  | cons z zs ih =>
    rw [List.map_cons, List.mapM_cons, signed?_toString, ih]
    rfl

/-! ## Lines -/

/-- The words of a line are the numerals of the literals and of the closing zero. -/
lemma clauseWords_eq (c : Clause) :
    clauseWords c = (c.map Literal.raw ++ [0]).map fun z => toString z := by
  rw [clauseWords, List.map_append, List.map_map]
  rfl

/-- The line of a clause lists its literals and then zero. -/
lemma integers?_dimacsClause (c : Clause) :
    integers? (dimacsClause c).toList = some (c.map Literal.raw ++ [0]) := by
  have words : (dimacsClause c).toList.splitOn ' ' = (clauseWords c).map String.toList :=
    splitOn_line (isWord_of_mem_clauseWords c)
      (List.append_ne_nil_of_right_ne_nil _ (List.cons_ne_nil _ _))
  rw [integers?, words, clauseWords_eq, List.map_map]
  exact mapM_signed?_toString _

/-- No literal is written as zero. -/
lemma zero_not_mem_raw (c : Clause) : 0 ∉ c.map Literal.raw := by
  intro zero
  obtain ⟨l, _, e⟩ := List.mem_map.mp zero
  exact l.ne_zero e

/-! ## The whole text -/

/-- The text of a formula with given clauses is a header and one line for each clause, each closed by
a line feed. The line of a clause lists its literals and then the only zero, which stands alone for
the empty clause. So formulas with the same text are equal. -/
theorem dimacs_reads_back :
    (∀ (v : Nat) (cs : List Clause), ∃ lines : List (List Char),
      (ofClauses v cs).dimacs.toList.splitOn '\n' =
        ("p cnf " ++ toString v ++ " " ++ toString cs.length).toList :: lines ++ [[]] ∧
      List.Forall₂ (fun c line => integers? line = some (c.map Literal.raw ++ [0]) ∧
        0 ∉ c.map Literal.raw ∧ (c = [] → line = ['0'])) cs lines) ∧
    (∀ f g : Formula, f.dimacs = g.dimacs → f.vars = g.vars ∧ f.clauses = g.clauses ∧ f = g) := by
  constructor
  · intro v cs
    refine ⟨cs.map fun c => (dimacsClause c).toList, ?_, ?_⟩
    · have size : (ofClauses v cs).size = cs.length := by
        rw [← length_clauses, clauses_ofClauses]
      rw [splitOn_dimacs, dimacsLines, dimacsHeader, size, vars_ofClauses, clauses_ofClauses,
        List.map_cons, List.map_map]
      rfl
    · rw [List.forall₂_map_right_iff, List.forall₂_same]
      intro c _
      refine ⟨integers?_dimacsClause c, zero_not_mem_raw c, ?_⟩
      rintro rfl
      rfl
  · intro f g h
    obtain ⟨vars, clauses⟩ := dimacs_eq_iff.mp h
    exact ⟨vars, clauses, eq_of_clauses_eq vars clauses⟩

/-- The line of an empty clause is a zero alone, and the place of the clause shows. -/
theorem dimacs_reads_back_empty_clause :
    (∃ line line', (ofClauses 2 [[.ofVariable 1 true (by decide), .ofVariable 2 false (by decide)],
        []]).dimacs.toList.splitOn '\n' = ["p cnf 2 2".toList, line, line', []] ∧
      integers? line = some [1, -2, 0] ∧ line' = ['0']) ∧
    (ofClauses 1 [[], [.ofVariable 1 true (by decide)]]).dimacs ≠
      (ofClauses 1 [[.ofVariable 1 true (by decide)], []]).dimacs := by
  obtain ⟨read, same⟩ := dimacs_reads_back
  constructor
  · obtain ⟨lines, split, each⟩ := read 2
      [[.ofVariable 1 true (by decide), .ofVariable 2 false (by decide)], []]
    cases each with
    | cons first rest =>
      cases rest with
      | cons second none =>
        cases none
        exact ⟨_, _, split, first.1, second.2.2 rfl⟩
  · intro text
    obtain ⟨_, clauses, _⟩ := same _ _ text
    rw [clauses_ofClauses, clauses_ofClauses] at clauses
    cases clauses

end ExactCover.Formula
