import ExactCover.Proofs.Selection
import Mathlib.Algebra.Ring.Nat

/-!
# How often elements are covered

The exact verdict of a verification. It names the least true variable beyond the family if there is
one, whatever the counts say. Otherwise the counts decide (`verify_eq_judge`): `timesCovered` is the
number of times that an element occurs in the subsets at the true positions, where each position
counts once, and the first element whose number is not one is named with that number
(`judge_eq_error_of_isLeast`).

Verification looks all subsets up before it counts. Counting each subset as it is looked up, with the
run cut short at the first variable without one, comes to the same (`verify_eq_inOnePass`): what a
subset adds to the counts (`addSubset_countsOf`) is what the run adds for all of them
(`foldlM_addSubset`).
-/

namespace ExactCover.Instance

variable {i : Instance} {m : Model}

/-- How often an element occurs in the subsets at the true positions. -/
def timesCovered (i : Instance) (m : Model) (e : Nat) : Nat :=
  ((i.positions.filter m.isTrue).map fun p => (i.elementsAt p).count e).sum

/-! ## Counting while looking up -/

/-- The counts with one more occurrence of an element, which must have a count. -/
def addElement (counts : Array Nat) (e : Nat) : Except CoverError (Array Nat) :=
  if e < counts.size then .ok (counts.modify e (· + 1)) else .error (.strayElement e)

/-- The counts with the elements of the subset at a position, which must be in the family. -/
def addSubset (i : Instance) (counts : Array Nat) (p : Nat) : Except CoverError (Array Nat) :=
  match i.subset? p with
  | none => .error (.unknownVariable p i.subsetCount)
  | some s => s.elements.foldlM addElement counts

/-- Checks that the selected subsets partition the ground set. The elements of a subset are counted
as soon as it is looked up. -/
def verifyInOnePass (i : Instance) (m : Model) : Except CoverError Unit := do
  let counts ← m.trueVars.foldlM i.addSubset (Array.replicate i.ground.size 0)
  i.judge counts.toList

/-- The counts of the elements below `n` among some elements. -/
def countsOf (n : Nat) (es : List Nat) : Array Nat :=
  ((List.range n).map fun e => es.count e).toArray

section Counting

variable {n e : Nat} {es : List Nat}

/-- At the beginning every count is zero. -/
lemma countsOf_nil : countsOf n [] = Array.replicate n 0 := by
  rw [countsOf]
  simp

/-- An element adds one to its own count. -/
lemma addElement_countsOf :
    addElement (countsOf n es) e =
      if e < n then .ok (countsOf n (es ++ [e])) else .error (.strayElement e) := by
  have size : (countsOf n es).size = n := by simp [countsOf]
  have step : (countsOf n es).modify e (· + 1) = countsOf n (es ++ [e]) := by
    apply Array.ext
    · simp [countsOf]
    · intro k _ _
      by_cases same : e = k
      · subst same
        simp [countsOf]
      · simp [countsOf, same]
  rw [addElement, size, step]

/-- The elements of a subset add their counts, up to one that has none. -/
lemma foldlM_addElement (es' : List Nat) :
    es'.foldlM addElement (countsOf n es) =
      match es'.find? (n ≤ ·) with
      | some e => .error (.strayElement e)
      | none => .ok (countsOf n (es ++ es')) := by
  induction es' generalizing es with
  | nil =>
    rw [List.append_nil]
    rfl
  | cons e es' ih =>
    rw [List.foldlM_cons, addElement_countsOf]
    by_cases inside : e < n
    · have known : decide (n ≤ e) = false := decide_eq_false (Nat.not_le_of_lt inside)
      rw [if_pos inside, List.find?_cons, known, List.append_cons es e es']
      exact ih
    · have stray : decide (n ≤ e) = true := decide_eq_true (Nat.le_of_not_lt inside)
      rw [if_neg inside, List.find?_cons, stray]
      rfl

/-- A subset adds its elements to those that are counted. -/
lemma addSubset_countsOf (p : Nat) :
    i.addSubset (countsOf i.ground.size es) p =
      (i.checkSubset p).map fun es' => countsOf i.ground.size (es ++ es') := by
  unfold addSubset checkSubset
  cases i.subset? p with
  | none => rfl
  | some s =>
    dsimp only
    rw [foldlM_addElement]
    cases s.elements.find? (i.ground.size ≤ ·) with
    | none => rfl
    | some e => rfl

/-- A run through some positions adds the elements of all their subsets. -/
lemma foldlM_addSubset (ps : List Nat) :
    ps.foldlM i.addSubset (countsOf i.ground.size es) =
      (ps.mapM i.checkSubset).map fun ess => countsOf i.ground.size (es ++ ess.flatten) := by
  -- from any elements that are counted already, since each subset adds to the counts before it
  induction ps generalizing es with
  | nil =>
    change Except.ok (countsOf i.ground.size es) = .ok (countsOf i.ground.size (es ++ []))
    rw [List.append_nil]
  | cons p ps ih =>
    rw [List.foldlM_cons, List.mapM_cons, addSubset_countsOf]
    cases i.checkSubset p with
    | error err => rfl
    | ok es' =>
      change ps.foldlM i.addSubset (countsOf i.ground.size (es ++ es')) = _
      rw [ih]
      cases ps.mapM i.checkSubset with
      | error err => rfl
      | ok ess =>
        change Except.ok (countsOf i.ground.size (es ++ es' ++ ess.flatten)) =
          .ok (countsOf i.ground.size (es ++ (es' ++ ess.flatten)))
        rw [List.append_assoc]

end Counting

/-- It does not matter whether all subsets are looked up before the first element is counted. -/
lemma verify_eq_inOnePass : i.verify m = i.verifyInOnePass m := by
  rw [verify, verifyInOnePass, ← countsOf_nil, foldlM_addSubset]
  cases m.trueVars.mapM i.checkSubset with
  | error err => rfl
  | ok ess =>
    change i.judge (i.tally ess.flatten) = i.judge (countsOf i.ground.size ([] ++ ess.flatten)).toList
    rw [tally_eq]
    rfl

/-! ## The verdict on the counts -/

/-- Without variables beyond the family the verdict is that on the counts. -/
lemma verify_eq_judge (inGround : i.InGround) (known : ∀ v ∈ m.trueVars, v ∈ i.positions) :
    i.verify m = i.judge ((List.range i.ground.size).map (i.timesCovered m)) := by
  have found : m.trueVars.mapM i.checkSubset = .ok (m.trueVars.map i.elementsAt) :=
    (Traversal.mapM_eq_ok_iff_map (checkSubset_eq_ok_iff inGround)).mpr ⟨known, rfl⟩
  have counts : i.tally (m.trueVars.map i.elementsAt).flatten =
      (List.range i.ground.size).map (i.timesCovered m) := by
    rw [tally_eq, trueVars_eq_filter known, ← List.flatMap_def]
    refine List.map_congr_left fun e _ => ?_
    rw [List.count_flatMap]
    rfl
  rw [verify, found, ← counts]
  rfl

/-- The first element that does not count once decides. -/
lemma judge_eq_error_of_isLeast {n e : Nat} {times : Nat → Nat}
    (first : IsLeast {e | e < n ∧ times e ≠ 1} e) :
    i.judge ((List.range n).map times) = .error
      (if times e = 0 then .uncovered ((i.ground.element? e).getD "")
        else .overcovered ((i.ground.element? e).getD "") (times e)) := by
  obtain ⟨⟨inside, off⟩, least⟩ := first
  have search : ((List.range n).map times).zipIdx.find? (·.1 != 1) = some (times e, e) := by
    rw [List.find?_eq_some_iff_getElem]
    refine ⟨by simpa using off, e, by simpa using inside, by simp, fun k before => ?_⟩
    have once : times k = 1 := by
      by_contra other
      exact Nat.not_le_of_lt before (least ⟨Nat.lt_trans before inside, other⟩)
    simp [once]
  rw [judge, search]
  cases covered : times e with
  | zero => rfl
  | succ k => rfl

/-- Where there is a number there is a least one. -/
lemma exists_isLeast {P : Nat → Prop} (some : ∃ n, P n) : ∃ n, IsLeast {n | P n} n := by
  classical
  exact ⟨Nat.find some, Nat.find_spec some, fun _ h => Nat.find_min' some h⟩

/-- What verification answers. The least true variable beyond the family is reported whatever else
is wrong. If there is none, the verdict is favourable exactly if each element is covered once, and
otherwise the first element that is not is named: as uncovered, or with the number of times that it
is covered. The same comes out if the elements of each subset are counted when it is looked up. -/
theorem verify_names_first_fault (i : Instance) (inGround : i.InGround) (m : Model) :
    (∀ w, m.isTrue w = true → i.subsetCount < w →
      ∃ v, IsLeast {w | m.isTrue w = true ∧ i.subsetCount < w} v ∧
        i.verify m = .error (.unknownVariable v i.subsetCount)) ∧
    ((∀ w, m.isTrue w = true → w ≤ i.subsetCount) →
      (i.verify m = .ok () ↔ ∀ e < i.ground.size, i.timesCovered m e = 1) ∧
      ((∃ e < i.ground.size, i.timesCovered m e ≠ 1) →
        ∃ e t, IsLeast {e | e < i.ground.size ∧ i.timesCovered m e ≠ 1} e ∧
          i.ground.element? e = some t ∧
          (i.timesCovered m e = 0 → i.verify m = .error (.uncovered t)) ∧
          (2 ≤ i.timesCovered m e →
            i.verify m = .error (.overcovered t (i.timesCovered m e))))) ∧
    i.verify m = i.verifyInOnePass m := by
  refine ⟨?_, ?_, verify_eq_inOnePass⟩
  · intro w isTrue beyond
    have some : ∃ w, m.isTrue w = true ∧ i.subsetCount < w := ⟨w, isTrue, beyond⟩
    obtain ⟨v, least⟩ := exists_isLeast some
    exact ⟨v, least, verify_eq_error_of_isLeast inGround least⟩
  · intro within
    have known : ∀ v ∈ m.trueVars, v ∈ i.positions := by
      intro v hv
      have isTrue := Model.mem_trueVars.mp hv
      exact mem_positions.mpr ⟨Model.pos_of_isTrue isTrue, within v isTrue⟩
    rw [verify_eq_judge inGround known]
    constructor
    · rw [judge_eq_ok_iff, List.forall_mem_map]
      simp only [List.mem_range]
    · intro off
      obtain ⟨e, first⟩ := exists_isLeast off
      obtain ⟨t, token⟩ := exists_element? first.1.1
      have verdict := judge_eq_error_of_isLeast (i := i) first
      rw [token, Option.getD_some] at verdict
      refine ⟨e, t, first, token, fun none => ?_, fun several => ?_⟩
      · rw [verdict, if_pos none]
      · rw [verdict, if_neg (by omega)]

/-- A model that lists one variable twice and both signs of another: an element that is covered twice
stands in front of one that is covered three times and of one that is not covered. With two variables
beyond the family, the less one is reported. -/
theorem verify_names_first_fault_twice_listed :
    ∃ i : Instance, i.subsets = #[⟨[1, 2, 2]⟩, ⟨[2, 1, 0]⟩, ⟨[3]⟩] ∧
      i.verify ⟨[.ofVariable 2 true (by decide), .ofVariable 1 true (by decide),
        .ofVariable 2 true (by decide), .ofVariable 1 false (by decide)]⟩ =
          .error (.overcovered "b" 2) ∧
      i.verify ⟨[.ofVariable 6 true (by decide), .ofVariable 4 true (by decide)]⟩ =
        .error (.unknownVariable 4 3) := by
  obtain ⟨g, made⟩ := GroundSet.exists_ofDistinct_iff.mpr (show ["a", "b", "c", "d"].Nodup by decide)
  have size : g.size = 4 := GroundSet.size_of_ofDistinct made
  have inGround : InGround ⟨g, #[⟨[1, 2, 2]⟩, ⟨[2, 1, 0]⟩, ⟨[3]⟩]⟩ := by
    simp [InGround, size]
  refine ⟨⟨g, #[⟨[1, 2, 2]⟩, ⟨[2, 1, 0]⟩, ⟨[3]⟩]⟩, rfl, ?_, ?_⟩
  · obtain ⟨_, counts, _⟩ := verify_names_first_fault _ inGround
      ⟨[.ofVariable 2 true (by decide), .ofVariable 1 true (by decide),
        .ofVariable 2 true (by decide), .ofVariable 1 false (by decide)]⟩
    have within : ∀ w, Model.isTrue ⟨[.ofVariable 2 true (by decide),
        .ofVariable 1 true (by decide), .ofVariable 2 true (by decide),
        .ofVariable 1 false (by decide)]⟩ w = true → w ≤ 3 := by
      intro w hw
      have listed : w ∈ [1, 2] := Model.mem_trueVars.mpr hw
      have small : ∀ w ∈ [1, 2], w ≤ 3 := by decide
      exact small w listed
    obtain ⟨_, named⟩ := counts within
    have off : 1 < g.size ∧ (2 : Nat) ≠ 1 := by
      rw [size]
      decide
    obtain ⟨e, t, ⟨⟨_, wrong⟩, least⟩, token, _, often⟩ := named ⟨1, off⟩
    have first : e = 1 := by
      rcases Nat.le_one_iff_eq_zero_or_eq_one.mp (least off) with rfl | rfl
      · exact absurd rfl wrong
      · rfl
    subst first
    have read := GroundSet.element?_of_ofDistinct made 1
    rw [token] at read
    cases read
    exact often (Nat.le_refl 2)
  · obtain ⟨beyond, _⟩ := verify_names_first_fault _ inGround
      ⟨[.ofVariable 6 true (by decide), .ofVariable 4 true (by decide)]⟩
    obtain ⟨v, ⟨⟨_, outside⟩, least⟩, refused⟩ := beyond 6 rfl (show 3 < 6 by decide)
    have four : v = 4 := Nat.le_antisymm (least ⟨rfl, show 3 < 4 by decide⟩) outside
    rw [four] at refused
    exact refused

end ExactCover.Instance
