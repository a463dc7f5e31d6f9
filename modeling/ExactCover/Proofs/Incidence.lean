import ExactCover.Instance.Basic
import Mathlib.Data.List.Nodup
import Mathlib.Data.List.Range
import Mathlib.Tactic.Lemma

/-!
# Incidence

Which subset of a family holds which element, and how the occurrence index says so.
`occurrences?_eq_some` gives the index in closed form: the list of an element is `positionsOf`, which
runs through the positions in order and repeats each as often as its subset lists the element. So
the list never descends, and it is strictly ascending if no subset lists an element twice
(`pairwise_lt_positionsOf`).

`countP_positionsOf` is the double count behind every comparison of an occurrence list with the
subsets themselves.
-/

namespace ExactCover.Instance

variable {i : Instance} {p e : Nat}

/-- The elements of the subset at a position; a position without a subset has none. -/
def elementsAt (i : Instance) (p : Nat) : List Nat :=
  ((i.subset? p).map Subset.elements).getD []

/-- The positions of the family, in order. -/
def positions (i : Instance) : List Nat :=
  List.range' 1 i.subsetCount

/-- The positions of the subsets that hold an element, in order; a subset that lists the element
several times is named as many times. -/
def positionsOf (i : Instance) (e : Nat) : List Nat :=
  i.positions.flatMap fun p => List.replicate ((i.elementsAt p).count e) p

/-- No subset lists an element twice. -/
def NoRepeats (i : Instance) : Prop :=
  ∀ p, (i.elementsAt p).Nodup

/-! ## Positions -/

/-- The positions are counted from one. -/
lemma mem_positions : p ∈ i.positions ↔ 1 ≤ p ∧ p ≤ i.subsetCount := by
  rw [positions, List.mem_range'_1]
  omega

/-- The elements at a position of the family are those of a subset of the family. -/
lemma elementsAt_succ {n : Nat} (h : n < i.subsets.size) :
    i.elementsAt (n + 1) = i.subsets[n].elements := by
  simp [elementsAt, subset?, h]

/-- Only the positions of the family have elements. -/
lemma mem_positions_of_mem (h : e ∈ i.elementsAt p) : p ∈ i.positions := by
  rw [mem_positions, subsetCount]
  cases p with
  | zero => cases h
  | succ n =>
    by_cases hn : n < i.subsets.size
    · omega
    · rw [elementsAt, subset?, Array.getElem?_eq_none (by omega)] at h
      cases h

/-- The elements of all subsets belong to the ground set if the instance says so. -/
lemma InGround.lt (h : i.InGround) (he : e ∈ i.elementsAt p) : e < i.ground.size := by
  have hp := mem_positions.mp (mem_positions_of_mem he)
  obtain ⟨n, rfl⟩ := Nat.exists_eq_add_of_le' hp.1
  have hn : n < i.subsets.size := hp.2
  rw [elementsAt_succ hn] at he
  exact h _ (Array.getElem_mem hn) e he

/-! ## The occurrence index -/

/-- The subsets with their positions, as the positions with their elements. -/
lemma zipIdx_subsets :
    (i.subsets.toList.zipIdx 1).map (fun sp => (sp.1.elements, sp.2)) =
      i.positions.map fun p => (i.elementsAt p, p) := by
  apply List.ext_getElem
  · simp [positions, subsetCount]
  · intro n hn _
    have hn : n < i.subsets.size := by simpa using hn
    have e := elementsAt_succ hn
    rw [Nat.add_comm] at e
    simp [positions, e]

/-- Reading through the family position by position. -/
lemma memberships_eq :
    i.memberships = i.positions.flatMap fun p => (i.elementsAt p).map (·, p) := by
  have split : i.memberships = ((i.subsets.toList.zipIdx 1).map fun sp =>
      (sp.1.elements, sp.2)).flatMap fun ep => ep.1.map (·, ep.2) := by
    rw [List.flatMap_map, memberships]
  rw [split, zipIdx_subsets, List.flatMap_map]

/-- Each membership of an element sends the position to the list of that element. -/
lemma valuesFor_memberships : Bins.valuesFor e i.memberships = i.positionsOf e := by
  -- one subset sends its position once for each time it lists the element
  have one : ∀ (p : Nat) (es : List Nat),
      ((es.map (·, p)).filter (·.1 == e)).map (·.2) = List.replicate (es.count e) p := by
    intro p es
    rw [List.filter_map, List.map_map, List.count_eq_length_filter, ← List.map_const']
    rfl
  rw [Bins.valuesFor, memberships_eq, List.filter_flatMap, List.map_flatMap, positionsOf]
  simp only [one]

/-- The occurrence index of an instance: for each element of the ground set its positions. -/
lemma occurrences?_eq_some (h : i.InGround) :
    i.occurrences? = some ⟨(List.range i.ground.size).map i.positionsOf⟩ := by
  rw [occurrences?, if_pos h, Bins.toList_collect, List.map_map]
  congr 2
  exact List.map_congr_left fun e _ => valuesFor_memberships

/-! ## Occurrence lists -/

/-- The occurrence list of an element names the positions whose subsets hold it. -/
lemma mem_positionsOf : p ∈ i.positionsOf e ↔ e ∈ i.elementsAt p := by
  simp only [positionsOf, List.mem_flatMap, List.mem_replicate]
  constructor
  · rintro ⟨q, _, some, rfl⟩
    exact List.count_pos_iff.mp (Nat.pos_of_ne_zero some)
  · intro h
    exact ⟨p, mem_positions_of_mem h, (List.count_pos_iff.mpr h).ne', rfl⟩

/-- An occurrence list names positions of the family only. -/
lemma range_of_mem_positionsOf (h : p ∈ i.positionsOf e) : 1 ≤ p ∧ p ≤ i.subsetCount :=
  mem_positions.mp (mem_positions_of_mem (mem_positionsOf.mp h))

/-- Without repetitions in the subsets the occurrence lists ascend strictly. -/
lemma pairwise_lt_positionsOf (h : i.NoRepeats) : (i.positionsOf e).Pairwise (· < ·) := by
  rw [positionsOf, List.pairwise_flatMap]
  constructor
  -- a single copy of each position, and copies of different positions in the order of the family
  · intro p _
    rw [List.pairwise_replicate]
    exact .inl (List.nodup_iff_count_le_one.mp (h p) e)
  · refine (List.pairwise_lt_range' 1).imp fun {p q} hpq x hx y hy => ?_
    rw [List.eq_of_mem_replicate hx, List.eq_of_mem_replicate hy]
    exact hpq

/-- The true entries of an occurrence list are the occurrences of the element in the subsets at the
true positions. -/
lemma countP_positionsOf {isTrue : Nat → Bool} :
    (i.positionsOf e).countP isTrue =
      ((i.positions.filter isTrue).flatMap i.elementsAt).count e := by
  rw [positionsOf]
  induction i.positions with
  | nil => rfl
  | cons p ps ih =>
    rw [List.flatMap_cons, List.countP_append, List.countP_replicate, ih, List.filter_cons]
    cases isTrue p with
    | false => simp
    | true => simp

end ExactCover.Instance
