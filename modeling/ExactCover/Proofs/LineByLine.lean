import ExactCover.Text.Lines
import Mathlib.Data.List.DropRight
import Mathlib.Tactic.Lemma

/-!
# Texts line by line

A text is a line without a line feed, or such a line, a line feed and the text behind it. Statements
about whole texts follow this shape (`rowInduction`), and so do the lines of a text
(`lines_of_not_mem`, `lines_append`). Rows of bytes have the same shape.
-/

namespace ExactCover.Text

/-! ## Induction on rows -/

/-- What holds of every row without the separator `a`, and of a text behind such a row and the
separator if it holds of the text, holds of every text. -/
lemma rowInduction {α : Type} [DecidableEq α] (a : α) {motive : List α → Prop}
    (last : ∀ row, a ∉ row → motive row)
    (append : ∀ row rest, a ∉ row → motive rest → motive (row ++ a :: rest)) (xs : List α) :
    motive xs := by
  by_cases h : a ∈ xs
  · obtain ⟨row, rest, whole, fresh⟩ := List.eq_append_cons_of_mem h
    have shorter : rest.length < xs.length := by
      rw [whole, List.length_append, List.length_cons]
      omega
    rw [whole]
    exact append row rest fresh (rowInduction a last append rest)
  · exact last xs h
termination_by xs.length

variable {line cs rest : List Char}

/-! ## Lines -/

/-- Without a line feed a text is a single line, or none if it is empty. -/
lemma lines_of_not_mem (fresh : '\n' ∉ line) :
    lines line = if line.isEmpty then [] else [line] := by
  rw [lines, List.splitOn_eq_singleton fresh]
  rfl

/-- The line in front of the first line feed comes first. -/
lemma lines_append (fresh : '\n' ∉ line) (rest : List Char) :
    lines (line ++ '\n' :: rest) = dropCarriageReturn line :: lines rest := by
  have ne := List.splitOn_ne_nil '\n' rest
  rw [lines, List.splitOn_append_cons_self_of_not_mem fresh, lines]
  obtain ⟨front, last, whole⟩ := (List.eq_nil_or_concat' (rest.splitOn '\n')).resolve_left ne
  simp only [whole]
  rw [← List.cons_append, List.dropLast_concat, List.getLastD_concat, List.dropLast_concat,
    List.getLastD_concat, List.map_cons, List.cons_append]

/-- Without its carriage return a line has no line feed either. -/
lemma not_mem_dropCarriageReturn (fresh : '\n' ∉ line) : '\n' ∉ dropCarriageReturn line := by
  unfold dropCarriageReturn
  split
  · exact fun h => fresh (List.dropLast_subset line h)
  · exact fresh

/-- No line has a line feed of its own. -/
lemma not_mem_of_mem_lines (cs : List Char) : ∀ line ∈ lines cs, '\n' ∉ line := by
  induction cs using rowInduction '\n' with
  | last row fresh =>
    rw [lines_of_not_mem fresh]
    split
    · exact nofun
    · exact List.forall_mem_singleton.mpr fresh
  | append row rest fresh ih =>
    rw [lines_append fresh]
    exact List.forall_mem_cons.mpr ⟨not_mem_dropCarriageReturn fresh, ih⟩

/-- Only the empty text has no lines. -/
lemma lines_eq_nil_iff : lines cs = [] ↔ cs = [] := by
  by_cases feed : '\n' ∈ cs
  · obtain ⟨row, rest, rfl, fresh⟩ := List.eq_append_cons_of_mem feed
    rw [lines_append fresh]
    exact ⟨nofun, fun h => absurd h (List.append_ne_nil_of_right_ne_nil _ nofun)⟩
  · rw [lines_of_not_mem feed]
    cases cs with
    | nil => exact ⟨fun _ => rfl, fun _ => rfl⟩
    | cons c cs => exact ⟨nofun, nofun⟩

end ExactCover.Text
