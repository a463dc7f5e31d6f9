import ExactCover.Proofs.Parsing
import ExactCover.Proofs.Satisfaction
import Mathlib.Data.Set.Lattice
import Mathlib.Data.Set.Pairwise.Basic
import Mathlib.Order.CompletePartialOrder
import Mathlib.Order.Interval.Set.Defs

/-!
# Reduction of exact cover to satisfiability

An instance is encoded as a formula whose satisfying assignments are its exact covers. For an
occurrence index alone, without the family that it comes from, the meaning of the formula is a count:
each list has exactly one true entry. For an instance whose subsets repeat no element, the count says
that exactly one selected subset holds each element, and selections with this property are the exact
covers.
-/

namespace ExactCover.Instance

variable {i : Instance}

/-- The formula that an instance is encoded as. -/
def EncodedAs (i : Instance) (f : Formula) : Prop :=
  ∃ o, i.occurrences? = some o ∧ o.encode i.subsetCount = .ok f

/-- The elements of the subset at a position, as a set. -/
def members (i : Instance) (p : Nat) : Set Nat :=
  {e | e ∈ i.elementsAt p}

/-- The subsets at the positions are pairwise disjoint, and their union is the ground set. -/
structure IsExactCover (i : Instance) (ps : Set Nat) : Prop where
  inFamily : ps ⊆ Set.Icc 1 i.subsetCount
  disjoint : ps.PairwiseDisjoint i.members
  union_eq : ⋃ p ∈ ps, i.members p = Set.Iio i.ground.size

/-! ## Counting -/

/-- One entry of a list without repetitions is true exactly if one value is. -/
lemma countP_eq_one_iff {α : Type} {P : α → Bool} {list : List α} (distinct : list.Nodup) :
    list.countP P = 1 ↔ ∃! a, a ∈ list ∧ P a = true := by
  rw [List.countP_eq_length_filter, List.length_eq_one_iff]
  simp only [← List.mem_filter]
  constructor
  · rintro ⟨a, e⟩
    rw [e]
    exact ⟨a, List.mem_singleton_self a, fun b hb => List.mem_singleton.mp hb⟩
  · rintro ⟨a, ha, unique⟩
    refine ⟨a, List.perm_singleton.mp ?_⟩
    rw [List.perm_ext_iff_of_nodup (distinct.filter P) (List.nodup_singleton a)]
    intro b
    rw [List.mem_singleton]
    exact ⟨unique b, fun e => e ▸ ha⟩

/-- An instance whose subsets stay within its ground set is encoded, if there are not too many, and
its formula asks for one true entry in each occurrence list. -/
lemma exists_encodedAs (inGround : i.InGround) (fits : i.subsetCount ≤ maxVariable) :
    ∃ f, i.EncodedAs f ∧ ∀ isTrue : Nat → Bool, f.holds isTrue = true ↔
      ∀ e < i.ground.size, (i.positionsOf e).countP isTrue = 1 := by
  have index := occurrences?_eq_some inGround
  have inFamily : ∀ list ∈ (List.range i.ground.size).map i.positionsOf,
      ∀ p ∈ list, 1 ≤ p ∧ p ≤ i.subsetCount := by
    rw [List.forall_mem_map]
    exact fun e _ p hp => range_of_mem_positionsOf hp
  obtain ⟨f, hf⟩ := Encoding.exists_encode_eq_ok (o := ⟨_⟩) fits inFamily
  refine ⟨f, ⟨_, index, hf⟩, fun isTrue => ?_⟩
  rw [Encoding.holds_iff_of_encode hf, List.forall_mem_map]
  simp only [List.mem_range]

/-- Without repetitions, one true entry in the list of an element is one selected subset that holds
the element. -/
lemma countP_positionsOf_eq_one_iff (noRepeats : i.NoRepeats) {isTrue : Nat → Bool} {e : Nat} :
    (i.positionsOf e).countP isTrue = 1 ↔
      ∃! p, (1 ≤ p ∧ p ≤ i.subsetCount) ∧ isTrue p = true ∧ e ∈ i.elementsAt p := by
  have distinct : (i.positionsOf e).Nodup := (pairwise_lt_positionsOf noRepeats).imp Nat.ne_of_lt
  rw [countP_eq_one_iff distinct]
  refine existsUnique_congr fun p => ?_
  rw [mem_positionsOf]
  constructor
  · rintro ⟨he, hp⟩
    exact ⟨mem_positions.mp (mem_positions_of_mem he), hp, he⟩
  · rintro ⟨_, hp, he⟩
    exact ⟨he, hp⟩

/-! ## Exact covers -/

/-- The true positions of an assignment that selects one subset for each element are a cover. -/
lemma isExactCover_setOf (inGround : i.InGround) {isTrue : Nat → Bool}
    (one : ∀ e < i.ground.size,
      ∃! p, (1 ≤ p ∧ p ≤ i.subsetCount) ∧ isTrue p = true ∧ e ∈ i.elementsAt p) :
    i.IsExactCover {p | (1 ≤ p ∧ p ≤ i.subsetCount) ∧ isTrue p = true} where
  inFamily := fun p hp => hp.1
  disjoint := by
    intro p hp q hq ne
    refine Set.disjoint_left.mpr fun e hep heq => ne ?_
    obtain ⟨_, _, unique⟩ := one e (inGround.lt hep)
    rw [unique p ⟨hp.1, hp.2, hep⟩, unique q ⟨hq.1, hq.2, heq⟩]
  union_eq := by
    ext e
    simp only [Set.mem_iUnion, Set.mem_Iio]
    constructor
    · rintro ⟨p, _, he⟩
      exact inGround.lt he
    · intro he
      obtain ⟨p, ⟨hp, selected, hep⟩, _⟩ := one e he
      exact ⟨p, ⟨hp, selected⟩, hep⟩

/-- A cover has one subset for each element. -/
lemma IsExactCover.existsUnique {ps : Set Nat} (cover : i.IsExactCover ps) {e : Nat}
    (he : e < i.ground.size) :
    ∃! p, (1 ≤ p ∧ p ≤ i.subsetCount) ∧ p ∈ ps ∧ e ∈ i.elementsAt p := by
  have covered : e ∈ ⋃ p ∈ ps, i.members p := by
    rw [cover.union_eq]
    exact he
  simp only [Set.mem_iUnion] at covered
  obtain ⟨p, hp, hep⟩ := covered
  refine ⟨p, ⟨cover.inFamily hp, hp, hep⟩, ?_⟩
  rintro q ⟨_, hq, heq⟩
  by_contra ne
  exact Set.disjoint_left.mp (cover.disjoint hq hp ne) heq hep

/-- The formula of an occurrence index holds exactly if each list has one true entry. The formula of
a parsed instance holds exactly if one selected subset holds each element, so it is satisfiable
exactly if the instance has an exact cover. -/
theorem encoding_holds_iff :
    (∀ (o : OccurrenceIndex) (m : Nat) (f : Formula), o.encode m = .ok f →
      ∀ isTrue : Nat → Bool,
        f.holds isTrue = true ↔ ∀ list ∈ o.lists, list.countP isTrue = 1) ∧
    (∀ (text : String) (i : Instance), parse text = .ok i → i.subsetCount ≤ maxVariable →
      ∃ f, i.EncodedAs f ∧
        (∀ isTrue : Nat → Bool, f.holds isTrue = true ↔ ∀ e < i.ground.size,
          ∃! p, (1 ≤ p ∧ p ≤ i.subsetCount) ∧ isTrue p = true ∧ e ∈ i.elementsAt p) ∧
        ((∃ isTrue, f.holds isTrue = true) ↔ ∃ ps, i.IsExactCover ps)) := by
  refine ⟨fun o m f h isTrue => Encoding.holds_iff_of_encode h, fun text i h fits => ?_⟩
  have inGround := inGround_of_parse h
  obtain ⟨f, encoded, meaning⟩ := exists_encodedAs inGround fits
  have one : ∀ isTrue : Nat → Bool, f.holds isTrue = true ↔ ∀ e < i.ground.size,
      ∃! p, (1 ≤ p ∧ p ≤ i.subsetCount) ∧ isTrue p = true ∧ e ∈ i.elementsAt p := by
    intro isTrue
    rw [meaning]
    exact forall₂_congr fun e _ => countP_positionsOf_eq_one_iff (noRepeats_of_parse h)
  refine ⟨f, encoded, one, ?_⟩
  constructor
  · rintro ⟨isTrue, holds⟩
    exact ⟨_, isExactCover_setOf inGround ((one isTrue).mp holds)⟩
  · rintro ⟨ps, cover⟩
    -- membership in a cover need not be decidable
    classical
    refine ⟨fun p => decide (p ∈ ps), (one _).mpr fun e he => ?_⟩
    simp only [decide_eq_true_eq]
    exact cover.existsUnique he

/-- A repeated entry cannot be the one that is true, and the third of three groups is a cover. -/
theorem encoding_holds_iff_three_groups :
    (∃ f, (⟨[[1, 2, 2], [2]]⟩ : OccurrenceIndex).encode 2 = .ok f ∧
      ∀ isTrue, f.holds isTrue = false) ∧
    (∃ i f, parse "\x7ba b\x7d\n\x7b\x7ba\x7d\x7ba b\x7d\x7bb a\x7d\x7d" = .ok i ∧ i.EncodedAs f ∧
      f.holds (· == 3) = true ∧ ∃ ps, i.IsExactCover ps) := by
  constructor
  · obtain ⟨f, h⟩ := Encoding.exists_encode_eq_ok (o := ⟨[[1, 2, 2], [2]]⟩) (m := 2) (by decide)
      (by decide)
    refine ⟨f, h, fun isTrue => ?_⟩
    have meaning := encoding_holds_iff.1 _ _ _ h isTrue
    rw [← Bool.not_eq_true, meaning]
    simp only [List.forall_mem_cons, List.countP_cons, List.countP_nil]
    cases isTrue 2 with
    | true =>
      simp only [if_true]
      omega
    | false => simp
  · have form : InstanceText ["a", "b"] [["a"], ["a", "b"], ["b", "a"]]
        "\x7ba b\x7d\n\x7b\x7ba\x7d\x7ba b\x7d\x7bb a\x7d\x7d" :=
      instanceText_iff_read.mpr ⟨by decide +kernel, by decide +kernel⟩
    obtain ⟨i, h⟩ := exists_parse_eq_ok form ⟨by decide, by decide, by decide, by decide⟩
    have count : i.subsetCount = 3 := subsetCount_of_parse form h
    have size : i.ground.size = 2 := size_of_parse form h
    have third : i.elementsAt 3 = [1, 0] := elementsAt_of_parse form h
    obtain ⟨f, encoded, holds, cover⟩ := encoding_holds_iff.2 _ i h (count ▸ by decide)
    have selected : f.holds (· == 3) = true := by
      rw [holds, size, count]
      intro e he
      refine ⟨3, ⟨by decide, rfl, ?_⟩, fun p hp => beq_iff_eq.mp hp.2.1⟩
      rw [third, List.mem_cons, List.mem_singleton]
      omega
    exact ⟨i, f, h, encoded, selected, cover.mp ⟨_, selected⟩⟩

end ExactCover.Instance
