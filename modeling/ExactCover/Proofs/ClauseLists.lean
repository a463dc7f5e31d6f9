import ExactCover.Proofs.Storage
import Mathlib.Data.List.Induction

/-!
# Formulas as lists of clauses

A formula is made by adding clauses to the empty one, and in every respect it is the list of the
clauses that were added (`ofClauses_stores_clauses`). The spans are where the clauses stand when
they are put one after another, so each place of the array belongs to one clause only
(`Tiles.existsUnique`). An empty clause has an empty span at the start of the next one, which
holds no place.

A span is read here with its bounds checked (`slice?`). Every span of a formula passes the check, so
reading never fails.
-/

namespace ExactCover

/-! ## Places under a tiling -/

section

variable {a b place : Nat} {s : Span} {ss : List Span}

/-- The span holds the place. -/
def Span.Holds (s : Span) (place : Nat) : Prop :=
  s.start ≤ place ∧ place < s.stop

/-- No span of a tiling starts before its beginning or runs backwards. -/
lemma Tiles.start_bounds (h : Tiles a ss b) (hs : s ∈ ss) : a ≤ s.start ∧ s.start ≤ s.stop := by
  induction ss generalizing a with
  | nil => cases hs
  | cons t ss ih =>
    obtain ⟨start, le, rest⟩ := h
    rcases List.mem_cons.mp hs with rfl | hs
    · exact ⟨Nat.le_of_eq start.symm, start ▸ le⟩
    · obtain ⟨later, ordered⟩ := ih rest hs
      exact ⟨Nat.le_trans le later, ordered⟩

/-- Each filled place is held by one span, and by no other. -/
lemma Tiles.existsUnique (h : Tiles a ss b) (low : a ≤ place) (high : place < b) :
    ∃! i : Nat, ∃ s, ss[i]? = some s ∧ s.Holds place := by
  induction ss generalizing a with
  | nil =>
    have e : a = b := h
    omega
  | cons t ss ih =>
    obtain ⟨start, le, rest⟩ := h
    by_cases first : place < t.stop
    · -- the later spans start behind the place
      refine ⟨0, ⟨t, rfl, start ▸ low, first⟩, ?_⟩
      rintro (_ | i) ⟨s, at_i, holds⟩
      · rfl
      · have := (rest.start_bounds (List.mem_of_getElem? at_i)).1
        have := holds.1
        omega
    · obtain ⟨i, ⟨s, at_i, holds⟩, unique⟩ := ih rest (Nat.le_of_not_lt first)
      refine ⟨i + 1, ⟨s, at_i, holds⟩, ?_⟩
      rintro (_ | j) ⟨u, at_j, holds_j⟩
      · cases at_j
        exact absurd holds_j.2 first
      · exact congrArg (· + 1) (unique j ⟨u, at_j, holds_j⟩)

end

namespace Formula

variable {f : Formula} {isTrue : Nat → Bool}

/-! ## Reading -/

/-- The literals of a span, unless it runs backwards or leaves the array. -/
def slice? (f : Formula) (s : Span) : Option Clause :=
  if s.start ≤ s.stop ∧ s.stop ≤ f.literals.size then some (f.clauseAt s) else none

/-- The slice of a stored span is there, and it is the clause. -/
lemma slice?_of_mem {s : Span} (h : s ∈ f.spans.toList) : f.slice? s = some (f.clauseAt s) :=
  if_pos ⟨(f.tiles.start_bounds h).2, f.tiles.stop_le h⟩

/-- The clauses are found by their places in the list of all clauses. -/
lemma clause?_eq (f : Formula) (i : Nat) : f.clause? i = f.clauses[i]? := by
  rw [clause?, clauses, List.getElem?_map, Array.getElem?_toList]

/-- Every stored span has its slice, and in order these are the clauses. -/
lemma map_slice?_eq (f : Formula) : f.spans.toList.map f.slice? = f.clauses.map some := by
  rw [clauses, List.map_map]
  exact List.map_congr_left fun s hs => slice?_of_mem hs

/-- A formula holds exactly if each clause has a literal that is true. -/
lemma holds_iff : f.holds isTrue = true ↔
    ∀ c ∈ f.clauses, ∃ l ∈ c, isTrue l.var = l.isPositive := by
  simp only [holds, Literal.holds, List.all_eq_true, List.any_eq_true, beq_iff_eq]

/-! ## Adding -/

/-- The last clause is added to the formula of the others. -/
lemma ofClauses_append_singleton (vars : Nat) (cs : List Clause) (c : Clause) :
    ofClauses vars (cs ++ [c]) = (ofClauses vars cs).addClause c := by
  rw [ofClauses, List.foldl_append]
  rfl

/-- The literals are those of the clauses, one clause behind the other. -/
lemma literals_ofClauses (vars : Nat) (cs : List Clause) :
    (ofClauses vars cs).literals.toList = cs.flatten := by
  rw [← flatten_clauses, clauses_ofClauses]

/-- A clause stands behind those that were added before it. -/
lemma spans_ofClauses (vars : Nat) (cs : List Clause) : (ofClauses vars cs).spans.toList =
    (List.range cs.length).map fun i =>
      ⟨(cs.take i).flatten.length, (cs.take (i + 1)).flatten.length⟩ := by
  induction cs using List.reverseRecOn with
  | nil => rfl
  | append_singleton cs c ih =>
    have size : (ofClauses vars cs).literals.size = cs.flatten.length := by
      rw [← Array.length_toList, literals_ofClauses]
    have before : ∀ i ≤ cs.length, (cs ++ [c]).take i = cs.take i := fun i h =>
      List.take_append_of_le_length h
    have whole : (cs ++ [c]).take (cs.length + 1) = cs ++ [c] :=
      List.take_of_length_le (by simp)
    rw [ofClauses_append_singleton, addClause, Array.toList_push, ih, size, List.length_append,
      List.length_singleton, List.range_succ, List.map_append]
    congr 1
    · refine List.map_congr_left fun i hi => ?_
      have hi := List.mem_range.mp hi
      rw [before i (Nat.le_of_lt hi), before (i + 1) hi]
    · rw [List.map_singleton, whole, before _ (Nat.le_refl _), List.take_length,
        List.flatten_concat, List.length_append]

/-! ## The whole storage -/

/-- The formula stores the clauses of a list, in their order, and nothing else. A clause is found
by its number, and there is no other number. -/
structure Stores (f : Formula) (cs : List Clause) : Prop where
  size_eq : f.size = cs.length
  clause?_eq : ∀ i, f.clause? i = cs[i]?
  clauses_eq : f.clauses = cs
  /-- No span fails to be read. -/
  slices_eq : f.spans.toList.map f.slice? = cs.map some
  /-- A span goes from the end of the clauses before it to the end of its own clause. -/
  spans_eq : f.spans.toList = (List.range cs.length).map fun i =>
    ⟨(cs.take i).flatten.length, (cs.take (i + 1)).flatten.length⟩
  literals_eq : f.literals.toList = cs.flatten
  existsUnique : ∀ place < f.literals.size, ∃! i : Nat, ∃ s, f.spans[i]? = some s ∧ s.Holds place
  holds_iff : ∀ isTrue, f.holds isTrue = true ↔ ∀ c ∈ cs, ∃ l ∈ c, isTrue l.var = l.isPositive

/-- A formula that is made from clauses stores them. -/
lemma stores_ofClauses (vars : Nat) (cs : List Clause) : (ofClauses vars cs).Stores cs where
  size_eq := by rw [← length_clauses, clauses_ofClauses]
  clause?_eq i := by rw [clause?_eq, clauses_ofClauses]
  clauses_eq := clauses_ofClauses vars cs
  slices_eq := by rw [map_slice?_eq, clauses_ofClauses]
  spans_eq := spans_ofClauses vars cs
  literals_eq := literals_ofClauses vars cs
  existsUnique place h := by
    simp only [← Array.getElem?_toList]
    exact (ofClauses vars cs).tiles.existsUnique (Nat.zero_le place) h
  holds_iff isTrue := by rw [holds_iff, clauses_ofClauses]

/-- Adding clauses to the empty formula stores them as they are. What is added later does not touch
them, and formulas over the same variables are equal if they store the same clauses. -/
theorem ofClauses_stores_clauses (vars : Nat) (cs : List Clause) :
    (ofClauses vars cs).vars = vars ∧ (ofClauses vars cs).Stores cs ∧
    (∀ later, ∀ i < cs.length,
      (ofClauses vars (cs ++ later)).clause? i = (ofClauses vars cs).clause? i) ∧
    ∀ f : Formula, f.vars = vars → (f = ofClauses vars cs ↔ f.clauses = cs) := by
  refine ⟨vars_ofClauses vars cs, stores_ofClauses vars cs, fun later i h => ?_, fun f same => ?_⟩
  · rw [(stores_ofClauses _ _).clause?_eq, (stores_ofClauses _ _).clause?_eq,
      List.getElem?_append_left h]
  · constructor
    · rintro rfl
      exact clauses_ofClauses vars cs
    · intro clauses
      apply eq_of_clauses_eq
      · rw [same, vars_ofClauses]
      · rw [clauses, clauses_ofClauses]

/-- An empty clause between two others, and a fourth clause that is added later. -/
theorem ofClauses_stores_clauses_empty_between :
    let one := Literal.ofVariable 1 true (by decide)
    let notThree := Literal.ofVariable 3 false (by decide)
    let cs := [[one, notThree], [], [notThree]]
    let f := ofClauses 3 cs
    f.size = 3 ∧ f.spans.toList = [⟨0, 2⟩, ⟨2, 2⟩, ⟨2, 3⟩] ∧ f.clause? 1 = some [] ∧
    f.clause? 3 = none ∧ f.holds (fun v => v == 1) = false ∧
    (ofClauses 3 (cs ++ [[one]])).clause? 2 = f.clause? 2 ∧ ofClauses 3 [[one, notThree]] ≠ f := by
  intro one notThree cs f
  obtain ⟨_, stores, later, equal⟩ := ofClauses_stores_clauses 3 cs
  refine ⟨stores.size_eq, stores.spans_eq, stores.clause?_eq 1, stores.clause?_eq 3, ?_, ?_, ?_⟩
  · rw [Bool.eq_false_iff, Ne, stores.holds_iff]
    intro all
    obtain ⟨_, none, _⟩ := all [] (by simp [cs])
    exact List.not_mem_nil none
  · exact later [[one]] 2 (by decide)
  · intro same
    have clauses := (equal _ (vars_ofClauses 3 _)).mp same
    rw [clauses_ofClauses] at clauses
    exact absurd (congrArg List.length clauses) (by decide)

end Formula

end ExactCover
