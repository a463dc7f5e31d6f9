import ExactCover.Cover.Basic
import ExactCover.Proofs.Reduction
import Mathlib.Data.List.Sort

/-!
# Verification of a model

Verification looks the selected subsets up and counts how often each element of the ground set occurs
in them; the formula of the instance counts, for each element, the true entries of its occurrence
list. `verify_eq_ok_iff` brings the first count into the terms of the subsets, and
`countP_positionsOf` carries it over to the second, so a model passes verification exactly if it sets
no variable beyond the family and satisfies the formula.

The true variables of a model are listed without repetitions in ascending order, whatever the order
and number of its literals, so they are the true positions of the family wherever there are no others
(`trueVars_eq_filter`).
-/

namespace ExactCover.Model

variable {m : Model}

/-! ## True variables -/

/-- A number put in its place keeps the numbers ascending. -/
lemma pairwise_insertAscending {v : Nat} {vs : List Nat} (h : vs.Pairwise (· < ·)) :
    (insertAscending v vs).Pairwise (· < ·) := by
  induction vs with
  | nil => exact List.pairwise_singleton _ v
  | cons w ws ih =>
    obtain ⟨least, ascending⟩ := List.pairwise_cons.mp h
    unfold insertAscending
    split
    · rename_i lt
      refine List.pairwise_cons.mpr ⟨fun u hu => ?_, h⟩
      rcases List.mem_cons.mp hu with rfl | hu
      · exact lt
      · exact Nat.lt_trans lt (least u hu)
    · split
      · exact h
      · refine List.pairwise_cons.mpr ⟨fun u hu => ?_, ih ascending⟩
        rcases mem_insertAscending.mp hu with rfl | hu
        · omega
        · exact least u hu

/-- The true variables ascend strictly. -/
lemma pairwise_lt_trueVars (m : Model) : m.trueVars.Pairwise (· < ·) := by
  rw [trueVars]
  induction m.literals.filter Literal.isPositive with
  | nil => exact .nil
  | cons l ls ih => exact pairwise_insertAscending ih

/-- No literal speaks of the variable zero. -/
lemma pos_of_isTrue {v : Nat} (h : m.isTrue v = true) : 1 ≤ v := by
  rw [isTrue, List.any_eq_true] at h
  obtain ⟨l, _, h⟩ := h
  rw [Bool.and_eq_true, beq_iff_eq] at h
  rw [← h.2]
  exact Int.natAbs_pos.mpr l.ne_zero

end ExactCover.Model

namespace ExactCover.Instance

variable {i : Instance} {model : Model}

/-- The true variables of a model that sets none beyond the family are the true positions. -/
lemma trueVars_eq_filter (known : ∀ v ∈ model.trueVars, v ∈ i.positions) :
    model.trueVars = i.positions.filter model.isTrue := by
  have ascending : (i.positions.filter model.isTrue).Pairwise (· < ·) :=
    (List.pairwise_lt_range' 1).filter _
  -- both lists ascend, so they are equal as soon as they have the same members
  refine model.pairwise_lt_trueVars.eq_of_mem_iff ascending fun v => ?_
  rw [List.mem_filter, Model.mem_trueVars]
  exact ⟨fun h => ⟨known v (Model.mem_trueVars.mpr h), h⟩, fun h => h.2⟩

/-! ## Verification -/

/-- Within the ground set a selected subset can be looked up if its position is in the family. -/
lemma checkSubset_eq_ok_iff (inGround : i.InGround) (p : Nat) (es : List Nat) :
    i.checkSubset p = .ok es ↔ p ∈ i.positions ∧ es = i.elementsAt p := by
  rw [mem_positions, checkSubset, elementsAt]
  cases p with
  | zero =>
    constructor
    · intro h
      cases h
    · intro h
      exact absurd h.1.1 (Nat.not_succ_le_zero 0)
  | succ n =>
    rw [subset?]
    by_cases hn : n < i.subsets.size
    · have none : i.subsets[n].elements.find? (i.ground.size ≤ ·) = none := by
        rw [List.find?_eq_none]
        intro e he
        simpa using inGround _ (Array.getElem_mem hn) e he
      rw [Array.getElem?_eq_getElem hn]
      simp only [none, Except.ok.injEq, Option.map_some, Option.getD_some]
      exact ⟨fun h => ⟨⟨Nat.succ_pos n, hn⟩, h.symm⟩, fun h => h.2.symm⟩
    · rw [Array.getElem?_eq_none (Nat.le_of_not_lt hn)]
      constructor
      · intro h
        cases h
      · intro h
        exact absurd h.1.2 hn

/-- The tally counts each element of the ground set. -/
lemma tally_eq (es : List Nat) :
    i.tally es = (List.range i.ground.size).map fun e => es.count e := by
  -- a bin holds one mark for each occurrence of its element
  have size : ∀ e, (Bins.valuesFor e (es.map (·, ()))).length = es.count e := by
    intro e
    rw [Bins.valuesFor, List.length_map, List.filter_map, List.length_map,
      List.count_eq_length_filter]
    rfl
  rw [tally, Bins.toList_collect, List.map_map]
  exact List.map_congr_left fun e _ => size e

/-- The verdict is favourable if each element counts once. -/
lemma judge_eq_ok_iff {counts : List Nat} : i.judge counts = .ok () ↔ ∀ c ∈ counts, c = 1 := by
  have search : counts.zipIdx.find? (·.1 != 1) = none ↔ ∀ c ∈ counts, c = 1 := by
    rw [List.find?_eq_none]
    constructor
    · intro h c hc
      obtain ⟨n, hn⟩ := List.mem_iff_getElem?.mp hc
      have := h (c, n) (List.mem_zipIdx_iff_getElem?.mpr hn)
      simpa using this
    · rintro h ⟨c, n⟩ hcn
      simp [h c (List.fst_mem_of_mem_zipIdx hcn)]
  rw [← search, judge]
  split
  · rename_i e
    exact ⟨fun _ => e, fun _ => rfl⟩
  · rename_i e
    rw [e]
    exact ⟨nofun, nofun⟩
  · rename_i e
    rw [e]
    exact ⟨nofun, nofun⟩

/-- A model passes verification exactly if it sets no variable beyond the family and each element
occurs once in the selected subsets. -/
lemma verify_eq_ok_iff (inGround : i.InGround) :
    i.verify model = .ok () ↔ (∀ v ∈ model.trueVars, v ∈ i.positions) ∧
      ∀ e < i.ground.size, (model.trueVars.flatMap i.elementsAt).count e = 1 := by
  rw [verify, Traversal.bind_eq_ok_iff]
  simp only [Traversal.mapM_eq_ok_iff_map (checkSubset_eq_ok_iff inGround), judge_eq_ok_iff,
    tally_eq, List.forall_mem_map, List.mem_range]
  constructor
  · rintro ⟨_, ⟨known, rfl⟩, once⟩
    exact ⟨known, once⟩
  · rintro ⟨known, once⟩
    exact ⟨_, ⟨known, rfl⟩, once⟩

/-- Verification and the formula agree: a model passes exactly if it sets no variable beyond the
family and satisfies the formula of the instance. -/
theorem verify_iff_holds (i : Instance) (inGround : i.InGround)
    (fits : i.subsetCount ≤ maxVariable) (model : Model) :
    ∃ f, i.EncodedAs f ∧
      (i.verify model = .ok () ↔
        (∀ v, model.isTrue v = true → v ≤ i.subsetCount) ∧ f.holds model.isTrue = true) := by
  obtain ⟨f, encoded, meaning⟩ := exists_encodedAs inGround fits
  refine ⟨f, encoded, ?_⟩
  have known : (∀ v ∈ model.trueVars, v ∈ i.positions) ↔
      ∀ v, model.isTrue v = true → v ≤ i.subsetCount := by
    simp only [Model.mem_trueVars, mem_positions]
    exact forall₂_congr fun v h => ⟨fun hv => hv.2, fun hv => ⟨Model.pos_of_isTrue h, hv⟩⟩
  rw [verify_eq_ok_iff inGround, ← known, meaning]
  refine and_congr_right fun h => ?_
  simp only [trueVars_eq_filter h, countP_positionsOf]

/-- A model with both signs of a variable, on an instance whose first subset repeats an element. -/
theorem verify_iff_holds_both_signs :
    ∃ (i : Instance) (f : Formula), i.subsets = #[⟨[0, 0]⟩, ⟨[1, 0]⟩] ∧ i.EncodedAs f ∧
      f.holds (Model.isTrue ⟨[.ofVariable 2 true (by decide), .ofVariable 2 false (by decide)]⟩) =
        true := by
  have distinct : ["a", "b"].Nodup := by decide
  obtain ⟨g, made⟩ := GroundSet.exists_ofDistinct_iff.mpr distinct
  have size : g.size = 2 := GroundSet.size_of_ofDistinct made
  have inGround : InGround ⟨g, #[⟨[0, 0]⟩, ⟨[1, 0]⟩]⟩ := by
    simp [InGround, size]
  obtain ⟨f, encoded, agree⟩ := verify_iff_holds _ inGround (show 2 ≤ maxVariable by decide)
    ⟨[.ofVariable 2 true (by decide), .ofVariable 2 false (by decide)]⟩
  refine ⟨_, f, rfl, encoded, (agree.mp ?_).2⟩
  rw [verify_eq_ok_iff inGround, size]
  constructor
  · show ∀ v ∈ [2], v ∈ [1, 2]
    decide
  · show ∀ e < 2, [1, 0].count e = 1
    decide

end ExactCover.Instance
