import ExactCover.Cnf.Dimacs
import Mathlib.Logic.Function.Basic
import Mathlib.Tactic.Lemma
import Std.Data.String.ToInt

/-!
# Reading the DIMACS text back

Every line of the text is a row of words with single blanks between them, and no word contains a
blank or a line feed. So the text falls apart into its lines at the line feeds
(`splitOn_dimacs`) and each line into its words at the blanks (`splitOn_line`), and the words are
numerals, which determine their numbers. No delimiter is lost on an empty clause: its line is the
closing zero. `dimacs_eq_iff` says that the text determines the number of variables and the clauses.
-/

namespace ExactCover.Formula

variable {f g : Formula} {ws vs : List String}

/-- A word has neither blanks nor line feeds. -/
def IsWord (w : String) : Prop :=
  ∀ c ∈ w.toList, c ≠ ' ' ∧ c ≠ '\n'

instance (w : String) : Decidable (IsWord w) :=
  List.decidableBAll (fun c => c ≠ ' ' ∧ c ≠ '\n') w.toList

/-- The words of the line that opens the text. -/
def headerWords (f : Formula) : List String :=
  ["p", "cnf", toString f.vars, toString f.size]

/-- The words of the line of a clause. -/
def clauseWords (c : Clause) : List String :=
  c.map (fun l => toString l.raw) ++ ["0"]

/-! ## Words -/

/-- The numeral of a natural number is a word. -/
lemma isWord_toString_nat (n : Nat) : IsWord (toString n) := by
  intro c hc
  rw [Nat.toString_eq_repr, Nat.toList_repr] at hc
  have digit := Nat.isDigit_of_mem_toDigits (by decide) (by decide) hc
  constructor
  · rintro rfl
    cases digit
  · rintro rfl
    cases digit

/-- The numeral of an integer is a word, with its sign. -/
lemma isWord_toString_int (z : Int) : IsWord (toString z) := by
  cases z with
  | ofNat n => exact isWord_toString_nat n
  | negSucc n =>
    have sign : (toString (Int.negSucc n)).toList = '-' :: (toString (n + 1)).toList :=
      String.toList_append
    rw [IsWord, sign, List.forall_mem_cons]
    exact ⟨by decide, isWord_toString_nat (n + 1)⟩

/-- The header consists of words. -/
lemma isWord_of_mem_headerWords : ∀ w ∈ f.headerWords, IsWord w := by
  simp only [headerWords, List.forall_mem_cons]
  exact ⟨by decide, by decide, isWord_toString_nat _, isWord_toString_nat _, nofun⟩

/-- The line of a clause consists of words. -/
lemma isWord_of_mem_clauseWords (c : Clause) : ∀ w ∈ clauseWords c, IsWord w := by
  rw [clauseWords, List.forall_mem_append, List.forall_mem_map, List.forall_mem_singleton]
  exact ⟨fun l _ => isWord_toString_int l.raw, by decide⟩

/-! ## Lines -/

/-- The words of the first line have blanks between them, as those of the other lines do. -/
lemma dimacsHeader_eq : f.dimacsHeader = " ".intercalate f.headerWords := by
  have marks : "p cnf " = "p" ++ " " ++ ("cnf" ++ " ") := rfl
  simp only [dimacsHeader, headerWords, String.intercalate_cons_cons, String.intercalate_singleton,
    marks, String.append_assoc]

/-- A line is taken apart into its words. -/
lemma splitOn_line (words : ∀ w ∈ ws, IsWord w) (ne : ws ≠ []) :
    (" ".intercalate ws).toList.splitOn ' ' = ws.map String.toList := by
  rw [String.toList_intercalate]
  refine List.splitOn_intercalate ' ' ?_ ?_
  · rw [List.forall_mem_map]
    exact fun w hw blank => (words w hw ' ' blank).1 rfl
  · rwa [ne_eq, List.map_eq_nil_iff]

/-- Lines with the same text have the same words. -/
lemma words_eq_of_line_eq (hw : ∀ w ∈ ws, IsWord w) (hv : ∀ v ∈ vs, IsWord v) (nw : ws ≠ [])
    (nv : vs ≠ []) (h : " ".intercalate ws = " ".intercalate vs) : ws = vs := by
  have split := splitOn_line hw nw
  rw [h, splitOn_line hv nv] at split
  exact (List.map_inj_right fun _ _ => String.toList_injective).mp split.symm

/-- No line contains a line feed. -/
lemma not_mem_line (words : ∀ w ∈ ws, IsWord w) : '\n' ∉ (" ".intercalate ws).toList := by
  induction ws with
  | nil => exact List.not_mem_nil
  | cons w ws ih =>
    obtain ⟨head, tail⟩ := List.forall_mem_cons.mp words
    have first : '\n' ∉ w.toList := fun feed => (head '\n' feed).2 rfl
    cases ws with
    | nil => rwa [String.intercalate_singleton]
    | cons v vs =>
      rw [String.intercalate_cons_cons, String.toList_append, String.toList_append,
        List.mem_append, List.mem_append, not_or, not_or]
      exact ⟨⟨first, by decide⟩, ih tail⟩

/-- No line of the text has a line feed inside. -/
lemma not_mem_of_mem_dimacsLines : ∀ l ∈ f.dimacsLines, '\n' ∉ l.toList := by
  rw [dimacsLines, List.forall_mem_cons, List.forall_mem_map, dimacsHeader_eq]
  refine ⟨not_mem_line isWord_of_mem_headerWords, fun c _ => ?_⟩
  exact not_mem_line (isWord_of_mem_clauseWords c)

/-- The text is taken apart into its lines; nothing stands behind the last line feed. -/
lemma splitOn_dimacs :
    f.dimacs.toList.splitOn '\n' = f.dimacsLines.map String.toList ++ [[]] := by
  have fresh := not_mem_of_mem_dimacsLines (f := f)
  rw [dimacs, String.toList_join, List.flatMap_map]
  generalize f.dimacsLines = lines at fresh
  -- each step takes one line off the front, up to its line feed
  induction lines with
  | nil => rfl
  | cons l ls ih =>
    obtain ⟨head, tail⟩ := List.forall_mem_cons.mp fresh
    have ends : (l ++ "\n").toList = l.toList ++ ['\n'] := String.toList_append
    rw [List.flatMap_cons, ends, List.append_assoc, List.singleton_append,
      List.splitOn_append_cons_self_of_not_mem head, ih tail, List.map_cons, List.cons_append]

/-! ## The whole text -/

/-- Numerals tell literals apart. -/
lemma toString_raw_injective : Function.Injective fun l : Literal => toString l.raw :=
  fun _ _ h => Literal.eq_of_raw_eq (Int.repr_injective h)

/-- The line of a clause determines the clause. -/
lemma dimacsClause_injective : Function.Injective dimacsClause := by
  intro c d h
  have words : clauseWords c = clauseWords d :=
    words_eq_of_line_eq (isWord_of_mem_clauseWords c) (isWord_of_mem_clauseWords d)
      (List.append_ne_nil_of_right_ne_nil _ (List.cons_ne_nil _ _))
      (List.append_ne_nil_of_right_ne_nil _ (List.cons_ne_nil _ _)) h
  exact (List.map_inj_right fun _ _ e => toString_raw_injective e).mp
    (List.append_cancel_right words)

/-- The first line determines the number of variables. -/
lemma vars_eq_of_dimacsHeader_eq (h : f.dimacsHeader = g.dimacsHeader) : f.vars = g.vars := by
  rw [dimacsHeader_eq, dimacsHeader_eq] at h
  have words := words_eq_of_line_eq isWord_of_mem_headerWords isWord_of_mem_headerWords
    (List.cons_ne_nil _ _) (List.cons_ne_nil _ _) h
  simp only [headerWords, List.cons.injEq] at words
  exact Nat.repr_injective words.2.2.1

/-- The number of variables and the clauses make up the text, and the text tells them. -/
lemma dimacs_eq_iff : f.dimacs = g.dimacs ↔ f.vars = g.vars ∧ f.clauses = g.clauses := by
  constructor
  · intro h
    have lines : f.dimacsLines = g.dimacsLines := by
      have split := splitOn_dimacs (f := f)
      rw [h, splitOn_dimacs] at split
      exact ((List.map_inj_right fun _ _ => String.toList_injective).mp
        (List.append_cancel_right split)).symm
    obtain ⟨header, clauses⟩ := List.cons_eq_cons.mp lines
    exact ⟨vars_eq_of_dimacsHeader_eq header,
      (List.map_inj_right fun _ _ e => dimacsClause_injective e).mp clauses⟩
  · rintro ⟨vars, clauses⟩
    have size : f.size = g.size := by
      rw [← length_clauses, clauses, length_clauses]
    rw [dimacs, dimacs, dimacsLines, dimacsLines, dimacsHeader, dimacsHeader, vars, size, clauses]

end ExactCover.Formula
