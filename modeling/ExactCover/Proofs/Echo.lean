import ExactCover.Proofs.LineByLine
import ExactCover.Proofs.ModelReading

/-!
# Echoed outputs

The echo of an output is the output with a bare line feed at the end of every line. `toList_echo`
says how this changes the text, and `echo_keeps_model` that no model and no error depends on it.

The lines of an echo need not be those of the output: a carriage return at the end of a last line
without line feed has a line feed behind it in the echo, and is dropped when that is read again. But
all that is lost at the ends of lines is white space, which is trimmed off value lines in any case,
so both texts are read as if they were cut at their line feeds alone.
-/

namespace ExactCover.Text

/-- The text without the carriage return before each line feed that has one before it. -/
def bareFeeds : List Char → List Char
  | '\r' :: '\n' :: cs => '\n' :: bareFeeds cs
  | c :: cs => c :: bareFeeds cs
  | [] => []

/-- The text with a line feed at its end, unless it has one there or is empty. -/
def closeLastLine (cs : List Char) : List Char :=
  if cs.getLast?.all (· == '\n') then cs else cs ++ ['\n']

/-- The text of some lines, each with a line feed behind it. -/
def closed (ls : List (List Char)) : List Char :=
  ls.flatMap (· ++ ['\n'])

variable {line cs : List Char} {ls : List (List Char)}

/-! ## Closed lines -/

/-- The first line comes first, closed like the others. -/
lemma closed_cons (line : List Char) (ls : List (List Char)) :
    closed (line :: ls) = line ++ '\n' :: closed ls := by
  rw [closed, List.flatMap_cons, List.append_assoc]
  rfl

/-- Closed lines are found again at the line feeds, with nothing behind the last one. -/
lemma splitOn_closed (fresh : ∀ line ∈ ls, '\n' ∉ line) :
    (closed ls).splitOn '\n' = ls ++ [[]] := by
  induction ls with
  | nil => rfl
  | cons line ls ih =>
    obtain ⟨first, later⟩ := List.forall_mem_cons.mp fresh
    rw [closed_cons, List.splitOn_append_cons_self_of_not_mem first, ih later, List.cons_append]

/-- Each line adds the line feed behind it. -/
lemma count_closed (fresh : ∀ line ∈ ls, '\n' ∉ line) : (closed ls).count '\n' = ls.length := by
  induction ls with
  | nil => rfl
  | cons line ls ih =>
    obtain ⟨first, later⟩ := List.forall_mem_cons.mp fresh
    rw [closed_cons, List.count_append, List.count_eq_zero_of_not_mem first, List.count_cons_self,
      ih later, List.length_cons, Nat.zero_add]

/-- Every line, even an empty one, leaves its line feed. -/
lemma closed_eq_nil_iff : closed ls = [] ↔ ls = [] := by
  cases ls with
  | nil => exact ⟨fun _ => rfl, fun _ => rfl⟩
  | cons line ls =>
    rw [closed_cons]
    exact ⟨fun h => absurd h (List.append_ne_nil_of_right_ne_nil _ nofun), nofun⟩

/-! ## The text of an echo -/

/-- An echo closes every line of the text. -/
lemma toList_echo_eq_closed (s : String) : (echo s).toList = closed (lines s.toList) := by
  simp [echo, closed, String.toList_join, List.flatMap_map]

/-- Without line feeds no carriage return goes away. -/
lemma bareFeeds_of_not_mem (fresh : '\n' ∉ line) : bareFeeds line = line := by
  induction line using bareFeeds.induct with
  | case1 cs _ => exact absurd (List.mem_cons_of_mem _ List.mem_cons_self) fresh
  | case2 c cs other ih =>
    rw [bareFeeds, ih fun h => fresh (List.mem_cons_of_mem _ h)]
    exact other
  | case3 => rfl

/-- Only the end of a line matters for its carriage return. -/
lemma dropCarriageReturn_cons_cons (c d : Char) (line : List Char) :
    dropCarriageReturn (c :: d :: line) = c :: dropCarriageReturn (d :: line) := by
  simp only [dropCarriageReturn, List.getLast?_cons_cons, List.dropLast_cons_cons]
  split <;> rfl

/-- Of a carriage return and the line feed behind it only the line feed is left. -/
lemma bareFeeds_append (fresh : '\n' ∉ line) (rest : List Char) :
    bareFeeds (line ++ '\n' :: rest) = dropCarriageReturn line ++ '\n' :: bareFeeds rest := by
  induction line with
  | nil => simp [bareFeeds, dropCarriageReturn]
  | cons c line ih =>
    have later := ih fun h => fresh (List.mem_cons_of_mem _ h)
    cases line with
    | nil =>
      by_cases returns : c = '\r'
      · rw [returns]
        rfl
      · have kept : dropCarriageReturn [c] = [c] := by simp [dropCarriageReturn, returns]
        rw [kept, List.singleton_append, bareFeeds]
        · exact congrArg (c :: ·) later
        · exact fun _ e _ => returns e
    | cons d line =>
      have other : d ≠ '\n' := fun e => fresh (e ▸ List.mem_cons_of_mem _ List.mem_cons_self)
      rw [dropCarriageReturn_cons_cons, List.cons_append, List.cons_append, bareFeeds]
      · exact congrArg (c :: ·) later
      · exact fun _ _ e => other (List.cons.inj e).1

/-- A text without line feeds is a single line to close, or nothing. -/
lemma closeLastLine_of_not_mem (fresh : '\n' ∉ line) :
    closeLastLine line = if line.isEmpty then [] else line ++ ['\n'] := by
  rcases List.eq_nil_or_concat' line with rfl | ⟨front, c, rfl⟩
  · rfl
  · have other : c ≠ '\n' := fun e => fresh (e ▸ List.mem_concat_self)
    simp [closeLastLine, other]

/-- Closing the last line leaves those before it alone. -/
lemma closeLastLine_append (cs rest : List Char) :
    closeLastLine (cs ++ '\n' :: rest) = cs ++ '\n' :: closeLastLine rest := by
  have same : (cs ++ '\n' :: rest).getLast?.all (· == '\n') = rest.getLast?.all (· == '\n') := by
    rw [List.getLast?_append, List.getLast?_cons]
    cases rest.getLast? with
    | none => rfl
    | some c => rfl
  rw [closeLastLine, closeLastLine, same]
  split
  · rfl
  · rw [List.append_assoc, List.cons_append]

/-- An echo is the text with bare line feeds, and with one at its end. -/
lemma toList_echo (s : String) : (echo s).toList = closeLastLine (bareFeeds s.toList) := by
  rw [toList_echo_eq_closed]
  generalize s.toList = cs
  induction cs using rowInduction '\n' with
  | last row fresh =>
    rw [lines_of_not_mem fresh, bareFeeds_of_not_mem fresh, closeLastLine_of_not_mem fresh]
    split
    · rfl
    · exact closed_cons row []
  | append row rest fresh ih =>
    rw [lines_append fresh, closed_cons, ih, bareFeeds_append fresh, closeLastLine_append]

end ExactCover.Text

namespace ExactCover.Model
open Text

/-- Closing the lines of an output changes none of its value lines. -/
lemma valueLinesAmong_lines_closed {ls : List (List Char)} (fresh : ∀ line ∈ ls, '\n' ∉ line) :
    valueLinesAmong (lines (closed ls)) = valueLinesAmong ls := by
  rw [valueLinesAmong_lines, splitOn_closed fresh, valueLinesAmong_append]
  exact List.append_nil _

/-- An echo drops the carriage return before each line feed and adds a missing line feed at the end.
It has one line feed for each line, and is empty only if the output is; and reading it ends as
reading the output does, with the same model or the same error. -/
theorem echo_keeps_model (output : String) :
    (echo output).toList = closeLastLine (bareFeeds output.toList) ∧
    (echo output).toList.count '\n' = (lines output.toList).length ∧
    (echo output = "" ↔ output = "") ∧
    parse (echo output) = parse output := by
  have fresh := not_mem_of_mem_lines output.toList
  have text := toList_echo_eq_closed output
  refine ⟨toList_echo output, ?_, ?_, ?_⟩
  · rw [text, count_closed fresh]
  · rw [← String.toList_eq_nil_iff, text, closed_eq_nil_iff, lines_eq_nil_iff,
      String.toList_eq_nil_iff]
  · rw [parse_eq, parse_eq, text, valueLinesAmong_lines_closed fresh]

-- the echo of an echo drops carriage returns again, and the model is still the same
example : echo "v 1\r\r\nv 0\r" = "v 1\r\nv 0\r\n" ∧
    echo (echo "v 1\r\r\nv 0\r") = "v 1\nv 0\n" := by
  decide +kernel

end ExactCover.Model
