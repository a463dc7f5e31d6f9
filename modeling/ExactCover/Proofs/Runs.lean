import ExactCover.Text.Blank
import Mathlib.Data.List.TakeWhile
import Mathlib.Tactic.Lemma

/-!
# Runs of characters

Where the longest run of characters of a class ends, and what trimming leaves of a text. A text
`Stops` a class if it does not go on with a character of the class, so a run in front of it is a
longest run.
-/

namespace ExactCover.Text

variable {p : Char → Bool} {cs rest ws ws' : List Char}

/-- What comes next is not in the class, or nothing comes next. -/
def Stops (p : Char → Bool) (cs : List Char) : Prop :=
  ∀ c ∈ cs.head?, p c = false

/-- A class stops at once in front of a text without its characters. -/
lemma Stops.of_forall (h : ∀ c ∈ cs, p c = false) : Stops p cs :=
  fun c hc => h c (List.mem_of_mem_head? hc)

/-- What a text begins with decides, whatever follows the text. -/
lemma Stops.append (h : Stops p cs) (ne : cs ≠ []) (rest : List Char) : Stops p (cs ++ rest) := by
  obtain ⟨c, cs, rfl⟩ := List.exists_cons_of_ne_nil ne
  exact h

/-- The longest run is taken up to where it stops. -/
lemma takeWhile_append_stop (run : ∀ c ∈ cs, p c = true) (stop : Stops p rest) :
    (cs ++ rest).takeWhile p = cs := by
  rw [List.takeWhile_append_of_pos run]
  cases rest with
  | nil => rw [List.takeWhile_nil, List.append_nil]
  | cons c rest => rw [List.takeWhile_cons_of_neg (by simp [stop c rfl]), List.append_nil]

/-- What follows the longest run begins where it stops. -/
lemma dropWhile_append_stop (run : ∀ c ∈ cs, p c = true) (stop : Stops p rest) :
    (cs ++ rest).dropWhile p = rest := by
  rw [List.dropWhile_append_of_pos run]
  cases rest with
  | nil => rfl
  | cons c rest => rw [List.dropWhile_cons_of_neg (by simp [stop c rfl])]

/-- There is no run where the class stops at once. -/
lemma takeWhile_of_stops (stop : Stops p cs) : cs.takeWhile p = [] := by
  have run : ∀ c ∈ ([] : List Char), p c = true := nofun
  exact takeWhile_append_stop run stop

/-- Nothing is dropped where the class stops at once. -/
lemma dropWhile_of_stops (stop : Stops p cs) : cs.dropWhile p = cs := by
  have run : ∀ c ∈ ([] : List Char), p c = true := nofun
  exact dropWhile_append_stop run stop

/-- The longest run ends where the class does. -/
lemma stops_dropWhile (p : Char → Bool) (cs : List Char) : Stops p (cs.dropWhile p) := by
  intro c hc
  have last := List.head?_dropWhile_not p cs
  rw [Option.mem_def.mp hc] at last
  simpa using last

/-! ## Trimming -/

/-- White space at the end of a text does not matter to what trimming leaves of the end. -/
lemma trimEnd_append (blank : ∀ c ∈ ws, isWhiteSpace c = true)
    (stop : Stops isWhiteSpace cs.reverse) : trimEnd (cs ++ ws) = cs := by
  have blank' : ∀ c ∈ ws.reverse, isWhiteSpace c = true := fun c hc =>
    blank c (List.mem_reverse.mp hc)
  rw [trimEnd, List.reverse_append, dropWhile_append_stop blank' stop, List.reverse_reverse]

/-- Trimming removes the white space around a text that has none at its ends. -/
lemma trim_append (blank : ∀ c ∈ ws, isWhiteSpace c = true)
    (blank' : ∀ c ∈ ws', isWhiteSpace c = true) (first : Stops isWhiteSpace cs)
    (last : Stops isWhiteSpace cs.reverse) : trim (ws ++ cs ++ ws') = cs := by
  rw [trim, List.append_assoc, List.dropWhile_append_of_pos blank]
  cases cs with
  | nil =>
    rw [List.nil_append, List.dropWhile_eq_nil_iff.mpr blank']
    rfl
  | cons c cs =>
    rw [List.cons_append, List.dropWhile_cons_of_neg (by simp [first c rfl]), ← List.cons_append,
      trimEnd_append blank' last]

end ExactCover.Text
