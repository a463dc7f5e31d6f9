import ExactCover.Cnf.Literal

/-!
# Formulas in conjunctive normal form

The literals of all clauses lie one after another in a single array, and each clause is a span of
it. The spans follow each other without gap or overlap from the start of the array to its end; that
is part of the type. `clauses_addClause` says what the storage means: adding a clause puts it behind
the clauses that were there and changes none of them.
-/

namespace ExactCover

/-- A clause: the literals of which at least one must hold. -/
abbrev Clause := List Literal

/-- A stretch of places, from `start` up to but without `stop`. -/
structure Span where
  start : Nat
  stop : Nat
  deriving DecidableEq, Repr

/-- The spans lie one after another and fill the places from `a` to `b`. -/
def Tiles (a : Nat) : List Span → Nat → Prop
  | [], b => a = b
  | s :: ss, b => s.start = a ∧ a ≤ s.stop ∧ Tiles s.stop ss b

/-- A formula over the variables `1, …, vars`. -/
structure Formula where
  vars : Nat
  literals : Array Literal
  spans : Array Span
  tiles : Tiles 0 spans.toList literals.size
  deriving DecidableEq, Repr

/-- Spans that fill the places up to where others begin fill them together. -/
theorem Tiles.append {a b c : Nat} {ss ts : List Span} (hs : Tiles a ss b) (ht : Tiles b ts c) :
    Tiles a (ss ++ ts) c := by
  induction ss generalizing a with
  | nil => cases hs; exact ht
  | cons s ss ih => exact ⟨hs.1, hs.2.1, ih hs.2.2⟩

/-- The places are filled upwards. -/
theorem Tiles.le {a b : Nat} {ss : List Span} (h : Tiles a ss b) : a ≤ b := by
  induction ss generalizing a with
  | nil => exact Nat.le_of_eq h
  | cons s ss ih => exact Nat.le_trans h.2.1 (ih h.2.2)

/-- No span reaches beyond the filled places. -/
theorem Tiles.stop_le {a b : Nat} {ss : List Span} (h : Tiles a ss b) {s : Span} (hs : s ∈ ss) :
    s.stop ≤ b := by
  induction ss generalizing a with
  | nil => cases hs
  | cons t ss ih =>
    rcases List.mem_cons.mp hs with rfl | hs
    · exact h.2.2.le
    · exact ih h.2.2 hs

namespace Formula

/-- The formula without clauses, which always holds. -/
def empty (vars : Nat) : Formula where
  vars := vars
  literals := #[]
  spans := #[]
  tiles := rfl

/-- The formula with one more clause at its end. -/
def addClause (f : Formula) (c : Clause) : Formula where
  vars := f.vars
  literals := f.literals ++ c.toArray
  spans := f.spans.push ⟨f.literals.size, f.literals.size + c.length⟩
  tiles := by
    simp only [Array.toList_push, Array.size_append, List.size_toArray]
    exact f.tiles.append ⟨rfl, Nat.le_add_right .., rfl⟩

/-- The formula with the given clauses, in order. -/
def ofClauses (vars : Nat) (cs : List Clause) : Formula :=
  cs.foldl addClause (empty vars)

/-- The literals of a span. -/
def clauseAt (f : Formula) (s : Span) : Clause :=
  (f.literals.extract s.start s.stop).toList

/-- The number of clauses. -/
def size (f : Formula) : Nat :=
  f.spans.size

/-- The clause with a number, counted from zero. -/
def clause? (f : Formula) (i : Nat) : Option Clause :=
  f.spans[i]?.map f.clauseAt

/-- The clauses in order. -/
def clauses (f : Formula) : List Clause :=
  f.spans.toList.map f.clauseAt

/-- The formula holds when exactly the variables with `isTrue` are true. -/
def holds (f : Formula) (isTrue : Nat → Bool) : Bool :=
  f.clauses.all fun c => c.any (Literal.holds isTrue)

/-- A new clause declares no variables. -/
@[simp]
theorem vars_addClause (f : Formula) (c : Clause) : (f.addClause c).vars = f.vars :=
  rfl

/-- The empty formula has no clauses. -/
@[simp]
theorem clauses_empty (vars : Nat) : (empty vars).clauses = [] :=
  rfl

/-- A new clause comes last and leaves the others as they are. -/
@[simp]
theorem clauses_addClause (f : Formula) (c : Clause) :
    (f.addClause c).clauses = f.clauses ++ [c] := by
  have old : ∀ s ∈ f.spans.toList, (f.addClause c).clauseAt s = f.clauseAt s := by
    intro s hs
    have h := f.tiles.stop_le hs
    simp only [clauseAt, addClause, Array.extract_append]
    simp [Nat.sub_eq_zero_of_le h]
  have new : (f.addClause c).clauseAt ⟨f.literals.size, f.literals.size + c.length⟩ = c := by
    simp [clauseAt, addClause, Array.extract_append]
  have spans : (f.addClause c).spans.toList =
      f.spans.toList ++ [⟨f.literals.size, f.literals.size + c.length⟩] := by
    simp [addClause]
  simp only [clauses, spans, List.map_append, List.map_cons, List.map_nil, new]
  rw [List.map_congr_left old]

/-- The clauses of a formula are those that it was made from. -/
@[simp]
theorem clauses_ofClauses (vars : Nat) (cs : List Clause) : (ofClauses vars cs).clauses = cs := by
  suffices ∀ f : Formula, (cs.foldl addClause f).clauses = f.clauses ++ cs by
    simpa [ofClauses] using this (empty vars)
  induction cs with
  | nil => simp
  | cons c cs ih => intro f; simp [ih]

/-- The variables of a formula are those that it was made for. -/
@[simp]
theorem vars_ofClauses (vars : Nat) (cs : List Clause) : (ofClauses vars cs).vars = vars := by
  suffices ∀ f : Formula, (cs.foldl addClause f).vars = f.vars from this (empty vars)
  induction cs with
  | nil => exact fun f => rfl
  | cons c cs ih => exact fun f => ih (f.addClause c)

/-- There are as many clauses as the formula counts. -/
@[simp]
theorem length_clauses (f : Formula) : f.clauses.length = f.size := by
  simp [clauses, size]

end Formula

end ExactCover
