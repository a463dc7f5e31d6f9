import ExactCover.Cnf.Literal

/-!
# Models

A model is a list of literals as a solver lists them: in any order, with repetitions, perhaps even
with both signs of a variable. A variable is true in it exactly if its positive literal is listed;
`mem_trueVars` says so of the ascending list of the true variables.
-/

namespace ExactCover

/-- The literals that a solver lists. -/
structure Model where
  literals : List Literal
  deriving DecidableEq, Repr

namespace Model

/-- Puts a number into a strictly ascending list, unless it is there. -/
def insertAscending (v : Nat) : List Nat → List Nat
  | [] => [v]
  | w :: ws =>
    if v < w then v :: w :: ws
    else if v = w then w :: ws
    else w :: insertAscending v ws

/-- The variables whose positive literal is listed, each once, in ascending order. -/
def trueVars (m : Model) : List Nat :=
  (m.literals.filter Literal.isPositive).foldr (fun l vs => insertAscending l.var vs) []

/-- The positive literal of the variable is listed. -/
def isTrue (m : Model) (v : Nat) : Bool :=
  m.literals.any fun l => l.isPositive && l.var == v

/-- The number that is put in is there, and nothing else is new. -/
theorem mem_insertAscending {v w : Nat} {vs : List Nat} :
    w ∈ insertAscending v vs ↔ w = v ∨ w ∈ vs := by
  induction vs with
  | nil => simp [insertAscending]
  | cons u us ih =>
    unfold insertAscending
    split
    · simp
    · split <;> rename_i h
      · subst h; simp
      · simp only [List.mem_cons, ih]
        constructor <;> rintro (h | h | h) <;> simp [h]

/-- The ascending list holds exactly the true variables. -/
theorem mem_trueVars {m : Model} {v : Nat} : v ∈ m.trueVars ↔ m.isTrue v = true := by
  obtain ⟨ls⟩ := m
  induction ls with
  | nil => simp [trueVars, isTrue]
  | cons l ls ih =>
    simp only [trueVars, isTrue, List.any_cons, Bool.or_eq_true] at ih ⊢
    cases h : l.isPositive
    · simp [h, ih]
    · rw [List.filter_cons_of_pos h, List.foldr_cons, mem_insertAscending, ih, Bool.true_and,
        beq_iff_eq, eq_comm (a := v)]

end Model

end ExactCover
