import ExactCover.Proofs.Pairs
import ExactCover.Proofs.Reduction
import Mathlib.Algebra.BigOperators.Group.Finset.Piecewise
import Mathlib.Algebra.Ring.Nat
import Mathlib.Order.Interval.Finset.Nat

/-!
# How often a clause is stated

The clauses of an encoding by their numbers. There is one coverage clause for each list, and behind
them one exclusivity clause for each two places of each list (`rawClauses_of_encode`), so the number
of clauses depends on the lengths of the lists alone.

For an instance the exclusivity clauses can be counted in another way. The encoding goes from the
elements to the pairs of subsets that hold them, and the same clause comes up again for each element
that two subsets share. So a pair of subsets is forbidden as often as it shares elements
(`count_heldPairs`), and the number of exclusivity clauses is the sum of these over all pairs.
-/

namespace ExactCover

/-! ## The clauses by their numbers -/

/-- The clauses of a formula as the numbers that their literals are written as. -/
def Formula.rawClauses (f : Formula) : List (List Int) :=
  f.clauses.map (List.map Literal.raw)

namespace Encoding

variable {m p q : Nat} {o : OccurrenceIndex} {f : Formula}

/-- The clause that wants one of some positions, by its numbers. -/
def covering (list : List Nat) : List Int :=
  list.map fun p : Nat => (p : Int)

/-- The clause that forbids to select two positions, by its numbers. -/
def forbidding (pq : Nat × Nat) : List Int :=
  [-(pq.1 : Int), -(pq.2 : Int)]

/-- A forbidding clause tells the two positions. -/
lemma forbidding_injective : Function.Injective forbidding := by
  rintro ⟨p, q⟩ ⟨p', q'⟩ h
  simp only [forbidding, List.cons.injEq, Int.neg_inj, Int.natCast_inj, and_true] at h
  rw [h.1, h.2]

/-- A clause that wants one of some positions is none that forbids two. -/
lemma covering_ne_forbidding {list : List Nat} (pos : 1 ≤ p) :
    covering list ≠ forbidding (p, q) := by
  intro h
  have negative : -(p : Int) ∈ covering list := by
    rw [h]
    exact List.mem_cons_self
  obtain ⟨n, _, e⟩ := List.mem_map.mp negative
  omega

/-- The lists themselves, then a clause for each pair of entries of each list. -/
lemma rawClauses_of_encode (h : o.encode m = .ok f) :
    f.rawClauses = o.lists.map covering ++ (o.lists.flatMap pairs).map forbidding := by
  obtain ⟨fits, pss, lists, rfl⟩ := encode_eq_ok_iff.mp h
  have wants : ∀ ps : List (Position m),
      (coverage fits ps).map Literal.raw = covering (numbers ps) := by
    intro ps
    rw [coverage, covering, numbers, List.map_map, List.map_map]
    rfl
  have forbids : ∀ ps : List (Position m), (exclusivity fits ps).map (List.map Literal.raw) =
      (pairs ps).map (forbidding ∘ Prod.map Subtype.val Subtype.val) := by
    intro ps
    rw [exclusivity, List.map_map]
    rfl
  rw [Formula.rawClauses, Formula.clauses_ofClauses, clauses, lists, List.map_append, List.map_map,
    List.map_map, flatMap_pairs_numbers, List.map_map, List.map_flatMap, List.map_flatMap]
  simp only [Function.comp_def, wants]
  simp only [forbids]
  rfl

/-- There is a clause for each list and one for each pair of entries of a list. -/
lemma size_of_encode (h : o.encode m = .ok f) :
    f.size = o.size + (o.lists.flatMap pairs).length := by
  have count := congrArg List.length (rawClauses_of_encode h)
  rwa [Formula.rawClauses, List.length_map, Formula.length_clauses, List.length_append,
    List.length_map, List.length_map] at count

/-- A clause that forbids two positions stands behind the lists, once for each such pair. -/
lemma count_forbidding (h : o.encode m = .ok f) (pos : 1 ≤ p) :
    f.rawClauses.count (forbidding (p, q)) = (o.lists.flatMap pairs).count (p, q) := by
  have none : (o.lists.map covering).count (forbidding (p, q)) = 0 := by
    rw [List.count_eq_zero, List.mem_map]
    rintro ⟨list, _, e⟩
    exact covering_ne_forbidding pos e
  rw [rawClauses_of_encode h, List.count_append, none, Nat.zero_add,
    List.count_map_of_injective _ _ forbidding_injective]

end Encoding

/-! ## Shared elements -/

namespace Instance

open Encoding

variable {i : Instance} {p q : Nat}

/-- The elements that two subsets have in common. -/
def shared (i : Instance) (p q : Nat) : Finset Nat :=
  (i.elementsAt p).toFinset ∩ (i.elementsAt q).toFinset

/-- The pairs of entries of the occurrence lists. -/
def heldPairs (i : Instance) : List (Nat × Nat) :=
  ((List.range i.ground.size).map i.positionsOf).flatMap pairs

/-- Two subsets make a pair in the list of each element that both hold. -/
lemma count_heldPairs (inGround : i.InGround) (noRepeats : i.NoRepeats) :
    i.heldPairs.count (p, q) = if p < q then (i.shared p q).card else 0 := by
  have held : i.shared p q =
      (Finset.range i.ground.size).filter fun e => p ∈ i.positionsOf e ∧ q ∈ i.positionsOf e := by
    ext e
    simp only [shared, Finset.mem_inter, List.mem_toFinset, Finset.mem_filter, Finset.mem_range,
      mem_positionsOf]
    exact ⟨fun h => ⟨inGround.lt h.1, h⟩, fun h => h.2⟩
  rw [heldPairs, List.flatMap_map, List.count_flatMap, held, Finset.card_filter]
  simp only [Function.comp_def, count_pairs (pairwise_lt_positionsOf noRepeats)]
  split
  · rename_i lt
    simp only [lt, true_and]
    rfl
  · rename_i not_lt
    simp [not_lt]

/-- A held pair is one of different positions of the family, in order. -/
lemma range_of_mem_heldPairs (noRepeats : i.NoRepeats) (h : (p, q) ∈ i.heldPairs) :
    1 ≤ p ∧ p < q ∧ q ≤ i.subsetCount := by
  rw [heldPairs, List.flatMap_map] at h
  obtain ⟨e, _, h⟩ := List.mem_flatMap.mp h
  obtain ⟨lt, hp, hq⟩ := (mem_pairs_iff (pairwise_lt_positionsOf noRepeats)).mp h
  exact ⟨(range_of_mem_positionsOf hp).1, lt, (range_of_mem_positionsOf hq).2⟩

/-- All pairs together: for each two subsets the elements that they share. -/
lemma length_heldPairs (inGround : i.InGround) (noRepeats : i.NoRepeats) :
    i.heldPairs.length =
      ∑ pq ∈ Finset.Icc 1 i.subsetCount ×ˢ Finset.Icc 1 i.subsetCount with pq.1 < pq.2,
        (i.shared pq.1 pq.2).card := by
  have known : ∀ pq ∈ (i.heldPairs : Multiset (Nat × Nat)),
      pq ∈ {pq ∈ Finset.Icc 1 i.subsetCount ×ˢ Finset.Icc 1 i.subsetCount | pq.1 < pq.2} := by
    rintro ⟨p, q⟩ h
    have := range_of_mem_heldPairs noRepeats (Multiset.mem_coe.mp h)
    simp only [Finset.mem_filter, Finset.mem_product, Finset.mem_Icc]
    omega
  rw [← Multiset.coe_card, ← Multiset.sum_count_eq_card known]
  refine Finset.sum_congr rfl fun pq h => ?_
  have count := count_heldPairs (p := pq.1) (q := pq.2) inGround noRepeats
  rw [if_pos (Finset.mem_filter.mp h).2] at count
  rw [Multiset.coe_count, ← count]
  -- the two counts compare pairs by different tests
  congr 1
  exact lawful_beq_subsingleton _ _

/-! ## Structure and multiplicity -/

/-- The clauses of an encoding are the lists as positive literals, in the order of the elements, and
behind them, again in this order, one clause for each two places of a list in the lexicographic
order of the places; so there are as many clauses as lists and pairs of places. For an instance that
was read this counts what the subsets share. Two positions, the less one first, are forbidden once
for each element that both subsets hold, no position is forbidden with itself or behind a greater
one, and the exclusivity clauses together are as many as the shared elements of all pairs of
subsets. -/
theorem encoding_counts_shared_elements :
    (∀ (o : OccurrenceIndex) (m : Nat) (f : Formula), o.encode m = .ok f →
      f.rawClauses =
        (o.lists.map fun list => list.map fun p : Nat => (p : Int)) ++
          o.lists.flatMap (fun list => (placePairs list.length).map fun (a, b) =>
            [-(list.getD a 0 : Int), -(list.getD b 0 : Int)]) ∧
      f.size = o.size + (o.lists.map fun list => list.length * (list.length - 1) / 2).sum) ∧
    (∀ k, (∀ a b, (a, b) ∈ placePairs k ↔ a < b ∧ b < k) ∧
      (placePairs k).Pairwise fun x y => x.1 < y.1 ∨ x.1 = y.1 ∧ x.2 < y.2) ∧
    (∀ text i, parse text = .ok i → i.subsetCount ≤ maxVariable → ∃ f, i.EncodedAs f ∧
      (∀ p q : Nat, 1 ≤ p → p < q → q ≤ i.subsetCount →
        f.rawClauses.count [-(p : Int), -(q : Int)] = (i.shared p q).card ∧
        [-(q : Int), -(p : Int)] ∉ f.rawClauses) ∧
      (∀ p : Nat, 1 ≤ p → [-(p : Int), -(p : Int)] ∉ f.rawClauses) ∧
      (f.clauses.drop i.ground.size).length =
        ∑ pq ∈ Finset.Icc 1 i.subsetCount ×ˢ Finset.Icc 1 i.subsetCount with pq.1 < pq.2,
          (i.shared pq.1 pq.2).card) := by
  refine ⟨fun o m f h => ⟨?_, ?_⟩, fun k => ⟨fun a b => mem_placePairs_iff, pairwise_placePairs⟩,
    fun text i h fits => ?_⟩
  · rw [rawClauses_of_encode h, List.map_flatMap]
    simp only [pairs_eq_map_placePairs 0, List.map_map]
    rfl
  · rw [size_of_encode h, List.length_flatMap]
    simp only [length_pairs]
  · have inGround := inGround_of_parse h
    have noRepeats := noRepeats_of_parse h
    obtain ⟨f, ⟨o, index, encoded⟩, _⟩ := exists_encodedAs inGround fits
    have lists := occurrences?_eq_some inGround
    rw [index] at lists
    cases lists
    have counts : ∀ p q : Nat, 1 ≤ p → f.rawClauses.count [-(p : Int), -(q : Int)] =
        if p < q then (i.shared p q).card else 0 := by
      intro p q pos
      rw [← count_heldPairs inGround noRepeats]
      exact count_forbidding encoded pos
    refine ⟨f, ⟨_, index, encoded⟩, fun p q pos lt _ => ⟨?_, ?_⟩, fun p pos => ?_, ?_⟩
    · rw [counts p q pos, if_pos lt]
    · rw [← List.count_eq_zero, counts q p (by omega), if_neg (Nat.lt_asymm lt)]
    · rw [← List.count_eq_zero, counts p p pos, if_neg (Nat.lt_irrefl p)]
    · rw [← length_heldPairs inGround noRepeats, List.length_drop, Formula.length_clauses,
        size_of_encode encoded, OccurrenceIndex.size, List.length_map, List.length_range,
        Nat.add_sub_cancel_left]
      rfl

/-- Two of three groups share two elements, so the clause that forbids them comes up twice. A list
may also repeat an entry, and then it forbids the entry with itself. -/
theorem encoding_counts_shared_elements_twice :
    (∃ f, (⟨[[2, 1, 2], []]⟩ : OccurrenceIndex).encode 2 = .ok f ∧
      f.rawClauses = [[2, 1, 2], [], [-2, -1], [-2, -2], [-1, -2]] ∧ f.size = 5) ∧
    ∃ i f, parse "\x7ba b c\x7d\n\x7b\x7ba b\x7d\x7bb a\x7d\x7bc\x7d\x7d" = .ok i ∧ i.EncodedAs f ∧
      f.rawClauses.count [-1, -2] = 2 ∧ f.rawClauses.count [-1, -3] = 0 ∧
      [-2, -1] ∉ f.rawClauses := by
  obtain ⟨lists, _, shares⟩ := encoding_counts_shared_elements
  constructor
  · obtain ⟨f, h⟩ := exists_encode_eq_ok (o := ⟨[[2, 1, 2], []]⟩) (m := 2) (by decide) (by decide)
    obtain ⟨clauses, size⟩ := lists _ _ f h
    exact ⟨f, h, clauses, size⟩
  · have form : InstanceText ["a", "b", "c"] [["a", "b"], ["b", "a"], ["c"]]
        "\x7ba b c\x7d\n\x7b\x7ba b\x7d\x7bb a\x7d\x7bc\x7d\x7d" :=
      instanceText_iff_read.mpr ⟨by decide +kernel, by decide +kernel⟩
    obtain ⟨i, h⟩ := exists_parse_eq_ok form ⟨by decide, by decide, by decide, by decide⟩
    have count : i.subsetCount = 3 := subsetCount_of_parse form h
    have first : i.elementsAt 1 = [0, 1] := elementsAt_of_parse form h
    have second : i.elementsAt 2 = [1, 0] := elementsAt_of_parse form h
    have third : i.elementsAt 3 = [2] := elementsAt_of_parse form h
    obtain ⟨f, encoded, counts, _⟩ := shares _ i h (count ▸ by decide)
    have twice : (i.shared 1 2).card = 2 := by
      rw [shared, first, second]
      decide
    have never : (i.shared 1 3).card = 0 := by
      rw [shared, first, third]
      decide
    obtain ⟨shared₁₂, absent⟩ := counts 1 2 (by decide) (by decide) (count ▸ by decide)
    obtain ⟨shared₁₃, _⟩ := counts 1 3 (by decide) (by decide) (Nat.le_of_eq count.symm)
    exact ⟨i, f, h, encoded, shared₁₂.trans twice, shared₁₃.trans never, absent⟩

end Instance

end ExactCover
