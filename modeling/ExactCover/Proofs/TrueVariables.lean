import ExactCover.Cover.Printer
import ExactCover.Proofs.Selection
import Mathlib.Data.String.Basic

/-!
# What reports depend on

A model may list its literals in any order, repeat them, and list both signs of a variable. What is
said of it depends on nothing but which positive literals it lists: they make up the true variables
(`trueVars_eq_iff`), and verification, the selection and the formula see the true variables only.

The true variables are the members of a set in ascending order. In whichever order the members of
that set come, sorting them leaves this list (`mergeSort_eq_trueVars`). The entries of a selection
stand in the order of the true variables, and each of them holds the tokens of its subset in the
order of their code points (`selected_entries`).
-/

namespace ExactCover.Model

variable {m m' : Model} {v : Nat}

/-! ## Positive literals -/

/-- Both models list the same positive literals. -/
def SamePositive (m m' : Model) : Prop :=
  ∀ l : Literal, l.isPositive = true → (l ∈ m.literals ↔ l ∈ m'.literals)

/-- A positive literal is written as its variable. -/
lemma raw_eq_of_isPositive {l : Literal} (positive : l.isPositive = true) : l.raw = l.var := by
  rw [Literal.isPositive, decide_eq_true_iff] at positive
  exact (Int.natAbs_of_nonneg positive.le).symm

/-- A variable is true if its value is listed as a positive literal. -/
lemma isTrue_iff :
    m.isTrue v = true ↔ ∃ l ∈ m.literals, l.isPositive = true ∧ l.raw = v := by
  rw [isTrue, List.any_eq_true]
  constructor
  · rintro ⟨l, listed, h⟩
    rw [Bool.and_eq_true, beq_iff_eq] at h
    obtain ⟨positive, rfl⟩ := h
    exact ⟨l, listed, positive, raw_eq_of_isPositive positive⟩
  · rintro ⟨l, listed, positive, value⟩
    rw [raw_eq_of_isPositive positive] at value
    exact ⟨l, listed, by rw [positive, Int.ofNat_inj.mp value, beq_self_eq_true]; rfl⟩

/-- A positive literal is listed if its variable is true. -/
lemma isTrue_var_iff {l : Literal} (positive : l.isPositive = true) :
    m.isTrue l.var = true ↔ l ∈ m.literals := by
  rw [isTrue_iff, ← raw_eq_of_isPositive positive]
  constructor
  · rintro ⟨l', listed, _, same⟩
    rwa [← Literal.eq_of_raw_eq same]
  · intro listed
    exact ⟨l, listed, positive, rfl⟩

/-- The true variables tell which positive literals are listed, and the other way round. -/
lemma trueVars_eq_iff : m.trueVars = m'.trueVars ↔ m.SamePositive m' := by
  constructor
  · intro same l positive
    rw [← isTrue_var_iff positive, ← isTrue_var_iff positive, ← mem_trueVars, ← mem_trueVars, same]
  · intro same
    -- both lists ascend strictly, so their members decide
    refine m.pairwise_lt_trueVars.eq_of_mem_iff m'.pairwise_lt_trueVars fun v => ?_
    rw [mem_trueVars, mem_trueVars, isTrue_iff, isTrue_iff]
    refine exists_congr fun l => ?_
    constructor
    · rintro ⟨listed, positive, value⟩
      exact ⟨(same l positive).mp listed, positive, value⟩
    · rintro ⟨listed, positive, value⟩
      exact ⟨(same l positive).mpr listed, positive, value⟩

/-- The order in which the true variables are found does not matter once they are sorted. -/
lemma mergeSort_eq_trueVars {vs : List Nat} (distinct : vs.Nodup)
    (mem : ∀ v, v ∈ vs ↔ ∃ l ∈ m.literals, l.isPositive = true ∧ l.raw = v) :
    vs.mergeSort = m.trueVars := by
  have members : ∀ v, v ∈ vs ↔ v ∈ m.trueVars := by
    intro v
    rw [mem, ← isTrue_iff, mem_trueVars]
  have found : vs.Perm m.trueVars :=
    (List.perm_ext_iff_of_nodup distinct m.pairwise_lt_trueVars.nodup).mpr members
  have ascending : (vs.mergeSort).Pairwise (· ≤ ·) := List.pairwise_mergeSort' (· ≤ ·) vs
  have ascending' : m.trueVars.Pairwise (· ≤ ·) := m.pairwise_lt_trueVars.imp Nat.le_of_lt
  exact ((List.mergeSort_perm vs _).trans found).eq_of_pairwise
    (fun _ _ _ _ => Nat.le_antisymm) ascending ascending'

/-- Models with the same positive literals have the same true variables, asked for one by one or
listed. -/
lemma SamePositive.isTrue_eq (same : m.SamePositive m') : m.isTrue = m'.isTrue := by
  funext v
  rw [Bool.eq_iff_iff, ← mem_trueVars, ← mem_trueVars, trueVars_eq_iff.mpr same]

end ExactCover.Model

namespace ExactCover.Instance

variable {i : Instance} {m m' : Model}

/-! ## Selections -/

/-- The code points of a token. -/
def codePoints (t : String) : List Nat :=
  t.toList.map Char.toNat

/-- Tokens are ordered by their code points. -/
lemma codePoints_strictMono : StrictMono codePoints := by
  intro s t h
  rw [String.lt_iff_toList_lt] at h
  exact List.map_lt (fun _ _ lt => lt) h

/-- The entries of a selection stand for the true variables, in order. -/
lemma selected_entries {sel : List (List String)} (h : i.selected m = .ok sel) :
    List.Forall₂ (fun v entry => ∃ ts, i.tokens? v = some ts ∧ entry.Perm ts ∧
      (entry.map codePoints).Pairwise (· ≤ ·)) m.trueVars sel := by
  refine (Traversal.mapM_eq_ok_iff.mp h).imp fun v entry listed => ?_
  obtain ⟨ts, tokens, rfl⟩ := selectAt_eq_ok_iff_tokens.mp listed
  refine ⟨ts, tokens, List.mergeSort_perm ts _, ?_⟩
  have ascending := List.pairwise_mergeSort' (· ≤ ·) ts
  exact ascending.map codePoints fun s t le => codePoints_strictMono.monotone le

/-! ## Two models -/

/-- What a report depends on. The true variables ascend strictly, hold exactly the values of the
positive literals, and are what is asked for one by one; however the set of these values is listed,
sorting gives the true variables. A selection has an entry for each of them, in order, with the
tokens of its subset sorted by code points. So two models agree on the true variables exactly if they
list the same positive literals, and then they agree in verification, in the selection and its print,
and in whether they satisfy the formula. -/
theorem reports_depend_on_positive_literals :
    (∀ m : Model, m.trueVars.Pairwise (· < ·) ∧
      (∀ v, v ∈ m.trueVars ↔ ∃ l ∈ m.literals, l.isPositive = true ∧ l.raw = v) ∧
      (∀ v, m.isTrue v = true ↔ v ∈ m.trueVars) ∧
      ∀ vs : List Nat, vs.Nodup →
        (∀ v, v ∈ vs ↔ ∃ l ∈ m.literals, l.isPositive = true ∧ l.raw = v) →
        vs.mergeSort = m.trueVars) ∧
    (∀ (i : Instance) (m : Model) (sel : List (List String)), i.selected m = .ok sel →
      List.Forall₂ (fun v entry => ∃ ts, i.tokens? v = some ts ∧ entry.Perm ts ∧
        (entry.map codePoints).Pairwise (· ≤ ·)) m.trueVars sel) ∧
    ∀ m m' : Model, (m.trueVars = m'.trueVars ↔ m.SamePositive m') ∧
      (m.SamePositive m' → ∀ i : Instance,
        i.verify m = i.verify m' ∧ i.selected m = i.selected m' ∧
          (i.selected m).map Cover.print = (i.selected m').map Cover.print ∧
          ∀ f, i.EncodedAs f → f.holds m.isTrue = f.holds m'.isTrue) := by
  refine ⟨fun m => ⟨m.pairwise_lt_trueVars, fun v => ?_, fun v => Model.mem_trueVars.symm, ?_⟩,
    fun i m sel h => selected_entries h, fun m m' => ⟨Model.trueVars_eq_iff, ?_⟩⟩
  · rw [Model.mem_trueVars, Model.isTrue_iff]
  · exact fun vs distinct mem => Model.mergeSort_eq_trueVars distinct mem
  · intro same i
    have vars := Model.trueVars_eq_iff.mpr same
    have selected : i.selected m = i.selected m' := by
      rw [Instance.selected, Instance.selected, vars]
    refine ⟨?_, selected, ?_, fun f _ => ?_⟩
    · rw [verify, verify, vars]
    · rw [selected]
    · rw [same.isTrue_eq]

/-- A model out of order with a repetition, and one in order with the least literal of all and both
signs of a variable. -/
theorem reports_depend_on_positive_literals_two_models :
    [2, 1].mergeSort = Model.trueVars ⟨[.ofVariable 2 true (by decide),
      .ofVariable 1 true (by decide), .ofVariable 2 true (by decide)]⟩ ∧
    ∃ (i : Instance) (first second : List String), i.subsets = #[⟨[0, 2]⟩, ⟨[1]⟩] ∧
      i.selected ⟨[.ofVariable 2 true (by decide), .ofVariable 1 true (by decide),
        .ofVariable 2 true (by decide)]⟩ = .ok [first, second] ∧
      i.selected ⟨[⟨-2147483648, by decide, by decide, by decide⟩, .ofVariable 1 true (by decide),
        .ofVariable 1 false (by decide), .ofVariable 2 true (by decide)]⟩ = .ok [first, second] ∧
      first.Perm ["c", "b"] ∧ (first.map codePoints).Pairwise (· ≤ ·) := by
  obtain ⟨vars, entries, same⟩ := reports_depend_on_positive_literals
  obtain ⟨_, mem, _, sorted⟩ := vars ⟨[.ofVariable 2 true (by decide),
    .ofVariable 1 true (by decide), .ofVariable 2 true (by decide)]⟩
  refine ⟨sorted [2, 1] (by decide) fun v => ?_, ?_⟩
  · rw [← mem]
    exact (List.Perm.swap 1 2 []).mem_iff
  obtain ⟨g, made⟩ := GroundSet.exists_ofDistinct_iff.mpr (show ["c", "a", "b"].Nodup by decide)
  have known : ∀ v ∈ [1, 2], v ∈ [1, 2] := fun _ h => h
  have selected := selected_eq_ok_iff (i := ⟨g, #[⟨[0, 2]⟩, ⟨[1]⟩]⟩)
    (m := ⟨[.ofVariable 2 true (by decide), .ofVariable 1 true (by decide),
      .ofVariable 2 true (by decide)]⟩) |>.mpr ⟨known, rfl⟩
  obtain ⟨twin, alike⟩ := same ⟨[.ofVariable 2 true (by decide), .ofVariable 1 true (by decide),
    .ofVariable 2 true (by decide)]⟩ ⟨[⟨-2147483648, by decide, by decide, by decide⟩,
    .ofVariable 1 true (by decide), .ofVariable 1 false (by decide), .ofVariable 2 true (by decide)]⟩
  obtain ⟨_, selected', _⟩ := alike (twin.mp rfl) ⟨g, #[⟨[0, 2]⟩, ⟨[1]⟩]⟩
  cases entries _ _ _ selected with
  | cons head _ =>
    obtain ⟨ts, tokens, perm, ascending⟩ := head
    have listed : some ["c", "b"] = some ts := by
      rw [← tokens]
      have zero := GroundSet.element?_of_ofDistinct made 0
      have two := GroundSet.element?_of_ofDistinct made 2
      simp [tokens?, subset?, zero, two]
    cases listed
    exact ⟨_, _, _, rfl, selected, selected'.symm.trans selected, perm, ascending⟩

end ExactCover.Instance
