/-!
# Literals

A literal says of one variable that it is true or false. It is written as the number of the
variable, with a minus sign for false; numbers fit into 32 bits with sign, and zero is no literal,
since it ends a clause in the DIMACS format.
-/

namespace ExactCover

/-- The greatest variable that has a positive literal. -/
def maxVariable : Nat := 2147483647

/-- A signed variable. -/
structure Literal where
  /-- The number that the literal is written as. -/
  raw : Int
  ne_zero : raw ≠ 0
  lower : -2147483648 ≤ raw
  upper : raw ≤ 2147483647
  deriving DecidableEq, Repr

namespace Literal

/-- The literal written as `z`, unless `z` is zero or does not fit. -/
def ofInt? (z : Int) : Option Literal :=
  if h : z ≠ 0 ∧ -2147483648 ≤ z ∧ z ≤ 2147483647 then
    some ⟨z, h.1, h.2.1, h.2.2⟩
  else
    none

/-- The literal that says of a variable whether it is true. -/
def ofVariable (v : Nat) (value : Bool) (h : 1 ≤ v ∧ v ≤ maxVariable) : Literal where
  raw := if value then v else -v
  ne_zero := by unfold maxVariable at h; split <;> omega
  lower := by unfold maxVariable at h; split <;> omega
  upper := by unfold maxVariable at h; split <;> omega

/-- The variable that the literal speaks of. -/
def var (l : Literal) : Nat :=
  l.raw.natAbs

/-- The literal says that its variable is true. -/
def isPositive (l : Literal) : Bool :=
  0 < l.raw

/-- The literal of the same variable with the other sign. The least number has no negative. -/
def neg? (l : Literal) : Option Literal :=
  ofInt? (-l.raw)

/-- Literals are ordered as numbers. -/
instance : LE Literal := ⟨fun a b => a.raw ≤ b.raw⟩

instance (a b : Literal) : Decidable (a ≤ b) :=
  inferInstanceAs (Decidable (a.raw ≤ b.raw))

/-- The literal holds when exactly the variables with `isTrue` are true. -/
def holds (isTrue : Nat → Bool) (l : Literal) : Bool :=
  isTrue l.var == l.isPositive

/-- The literal of a variable is about that variable. -/
@[simp]
theorem var_ofVariable (v : Nat) (value : Bool) (h : 1 ≤ v ∧ v ≤ maxVariable) :
    (ofVariable v value h).var = v := by
  cases value <;> simp [ofVariable, var]

/-- The literal of a variable is positive if the variable is to be true. -/
@[simp]
theorem isPositive_ofVariable (v : Nat) (value : Bool) (h : 1 ≤ v ∧ v ≤ maxVariable) :
    (ofVariable v value h).isPositive = value := by
  have := h.1
  cases value <;> simp [ofVariable, isPositive]
  omega

/-- The number tells the literal. -/
theorem eq_of_raw_eq {l l' : Literal} (h : l.raw = l'.raw) : l = l' := by
  cases l
  cases l'
  cases h
  rfl

/-- A positive literal is the one of its variable. -/
theorem ofVariable_var {l : Literal} (positive : l.isPositive = true)
    (h : 1 ≤ l.var ∧ l.var ≤ maxVariable) : ofVariable l.var true h = l := by
  apply eq_of_raw_eq
  rw [isPositive, decide_eq_true_iff] at positive
  exact Int.natAbs_of_nonneg (Int.le_of_lt positive)

end Literal

end ExactCover
