import ExactCover.Cnf.Formula
import Mathlib.Tactic.Lemma

/-!
# Flat storage

A formula keeps the literals of all its clauses in one array, and for each clause the span that is its
own. Because the spans tile the array, the clauses one after another are the whole array
(`flatten_clauses`), and their lengths tell where each of them begins (`Tiles.eq_of_lengths`). So the
storage holds nothing beyond the clauses: formulas with the same variables and the same clauses are
equal (`eq_of_clauses_eq`).
-/

namespace ExactCover

/-! ## Tilings -/

variable {a b b' : Nat} {ss ts : List Span}

/-- The number of places of a span. -/
def Span.length (s : Span) : Nat :=
  s.stop - s.start

/-- From one place on there is only one tiling with given lengths. -/
lemma Tiles.eq_of_lengths (hs : Tiles a ss b) (ht : Tiles a ts b')
    (lengths : ss.map Span.length = ts.map Span.length) : ss = ts := by
  induction ss generalizing a ts with
  | nil => exact (List.map_eq_nil_iff.mp lengths.symm).symm
  | cons s ss ih =>
    cases ts with
    | nil => cases lengths
    | cons t ts =>
      obtain ⟨head, tail⟩ := List.cons.inj lengths
      -- both spans begin where the tilings do, so equal lengths give equal spans
      obtain ⟨startS, leS, restS⟩ := hs
      obtain ⟨startT, leT, restT⟩ := ht
      have start : s.start = t.start := startS.trans startT.symm
      have stop : s.stop = t.stop := by
        unfold Span.length at head
        omega
      have same : s = t := by
        cases s
        cases t
        cases start
        cases stop
        rfl
      rw [← stop] at restT
      rw [same, ih restS restT tail]

/-- The stretches of an array under a tiling, put together again. -/
lemma Tiles.flatMap_extract {α : Type} (xs : Array α) (h : Tiles a ss b) :
    ss.flatMap (fun s => (xs.extract s.start s.stop).toList) = (xs.extract a b).toList := by
  induction ss generalizing a with
  | nil =>
    have e : a = b := h
    rw [e, List.flatMap_nil, Array.extract_empty_of_stop_le_start (Nat.le_refl b), Array.toList_empty]
  | cons s ss ih =>
    obtain ⟨start, le, rest⟩ := h
    rw [List.flatMap_cons, ih rest, start, ← Array.toList_append, Array.extract_append_extract,
      Nat.min_eq_left le, Nat.max_eq_right rest.le]

/-! ## Formulas -/

namespace Formula

variable {f g : Formula} {s : Span}

/-- A clause is as long as its span. -/
lemma length_clauseAt (h : s ∈ f.spans.toList) : (f.clauseAt s).length = s.length := by
  rw [clauseAt, Array.length_toList, Array.size_extract, Nat.min_eq_left (f.tiles.stop_le h),
    Span.length]

/-- The clauses one after another are all literals in their order. -/
lemma flatten_clauses (f : Formula) : f.clauses.flatten = f.literals.toList := by
  have whole := f.tiles.flatMap_extract f.literals
  rw [Array.extract_size] at whole
  rw [← whole]
  rfl

/-- A formula is determined by its variables and its clauses. -/
lemma eq_of_clauses_eq (vars : f.vars = g.vars) (clauses : f.clauses = g.clauses) : f = g := by
  have lengths : ∀ f : Formula, f.spans.toList.map Span.length = f.clauses.map List.length := by
    intro f
    rw [Formula.clauses, List.map_map]
    exact List.map_congr_left fun s hs => (length_clauseAt hs).symm
  have spans : f.spans = g.spans := by
    apply Array.toList_inj.mp
    apply f.tiles.eq_of_lengths g.tiles
    rw [lengths, lengths, clauses]
  have literals : f.literals = g.literals := by
    apply Array.toList_inj.mp
    rw [← flatten_clauses, ← flatten_clauses, clauses]
  cases f
  cases g
  cases vars
  cases spans
  cases literals
  rfl

end Formula

end ExactCover
