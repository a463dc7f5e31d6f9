import ExactCover.Proofs.Families
import ExactCover.Proofs.Patience
import ExactCover.Random.SplitMix
import Mathlib.Algebra.BigOperators.Group.List.Basic

/-!
# The shape of generated families

What there is to see of a generated family, whatever words it is drawn with (`HasShape`). A
configuration is refused before any word is taken, and if it is not, every draw is from a range with
numbers in it. So the words decide on which family of the shape comes out, and only a draw that none
of them ends is in its way (`generate_shapes`).
-/

namespace ExactCover.Generator
open ExactCover.Random

/-! ## Shapes -/

/-- Sets that part the elements among them. -/
structure AreBlocks (n : Nat) (blocks : List (List Nat)) : Prop where
  one_le_length : 1 ≤ blocks.length
  length_le : blocks.length ≤ n
  nonempty : ∀ b ∈ blocks, b ≠ []
  disjoint : blocks.Pairwise List.Disjoint
  union : ∀ e, (∃ b ∈ blocks, e ∈ b) ↔ e < n

/-- What a configuration comes out as. -/
structure HasShape (c : Config) (g : Generated) : Prop where
  groundSize_eq : g.groundSize = c.groundSize
  nonempty : ∀ s ∈ g.subsets, s ≠ []
  ascending : ∀ s ∈ g.subsets, s.Pairwise (· < ·)
  bounded : ∀ s ∈ g.subsets, ∀ e ∈ s, e < c.groundSize
  parts : ∃ drawn blocks, Interleaving drawn blocks g.subsets ∧
    g.subsets.length = c.groundSize * c.multiplier + blocks.length ∧
    drawn.length = c.groundSize * c.multiplier ∧
    (∀ s ∈ drawn, 1 ≤ s.length ∧ s.length ≤ max 1 (c.groundSize - 1)) ∧
    if c.guaranteed then AreBlocks c.groundSize blocks else blocks = []

variable {n : Nat} {blocks : List (List Nat)} {c : Config}

/-- The blocks of a partition are at most as many as the elements, for each has one. -/
lemma IsPartition.areBlocks (h : IsPartition n blocks) (pos : 0 < n) : AreBlocks n blocks where
  one_le_length := by
    rw [Nat.one_le_iff_ne_zero, Ne, List.length_eq_zero_iff]
    rintro rfl
    have length := h.covers.length_eq
    rw [List.flatten_nil, List.length_nil, List.length_range] at length
    omega
  length_le := by
    have size := h.covers.length_eq
    rw [List.length_flatten, List.length_range] at size
    calc blocks.length
      _ = (blocks.map List.length).length := (List.length_map _).symm
      _ ≤ (blocks.map List.length).sum := by
        refine List.length_le_sum_of_one_le _ (List.forall_mem_map.mpr fun b hb => ?_)
        exact List.length_pos_iff.mpr (h.nonempty b hb)
      _ = n := size
  nonempty := h.nonempty
  disjoint := (List.nodup_flatten.mp (h.covers.nodup_iff.mpr List.nodup_range)).2
  union := fun e => by
    rw [← List.mem_flatten, h.covers.mem_iff, List.mem_range]

/-- A family that is drawn for a configuration has its shape. -/
lemma IsFamily.hasShape {family : List (List Nat)} (h : IsFamily c family)
    (pos : 0 < c.groundSize) : HasShape c ⟨c.groundSize, family⟩ where
  groundSize_eq := rfl
  nonempty := h.forall_mem (fun _ random => random.nonempty) fun _ partition => partition.nonempty
  ascending :=
    h.forall_mem (fun _ random => random.ascending) fun _ partition => partition.ascending
  bounded :=
    h.forall_mem (fun _ random => random.bounded) fun _ partition _ hs => partition.bounded hs
  parts := by
    cases h with
    | @mk drawn blocks _ length random partition interleaving =>
      have total := interleaving.perm.length_eq
      rw [List.length_append, length] at total
      refine ⟨drawn, blocks, interleaving, total, length, fun s hs => ?_, ?_⟩
      · exact ⟨List.length_pos_iff.mpr (random s hs).nonempty, (random s hs).proper⟩
      · split at partition
        · rename_i guaranteed
          rw [if_pos guaranteed]
          exact partition.areBlocks pos
        · rename_i guaranteed
          rw [if_neg guaranteed]
          exact partition

/-! ## Outcomes -/

variable {σ : Type} [WordSource σ]

/-- The draw of a size for a subset has an outcome. -/
lemma steady_subsetSize (n : Nat) :
    Steady fun patience => (subsetSize patience n : Draw σ Nat) := by
  unfold subsetSize
  split
  · exact .bind (steady_below64 (by omega)) fun k => .pure (k + 1)
  · exact .pure 1

/-- The draw of any number of random subsets has an outcome. -/
lemma steady_randomSubsets (count : Nat) (elements : Array Nat) (drawn : Array (List Nat)) :
    Steady fun patience =>
      (randomSubsets patience count elements drawn : Draw σ (List (List Nat))) := by
  induction count generalizing elements drawn with
  | zero => exact .pure drawn.toList
  | succ count ih =>
    simp only [randomSubsets]
    exact .bind (steady_shuffle elements) fun elements' =>
      .bind (steady_subsetSize elements'.size) fun size => ih _ _

/-- The draw of a partition has an outcome, if there is anything to part. -/
lemma steady_randomPartition (pos : 0 < n) :
    Steady fun patience => (randomPartition patience n : Draw σ (List (List Nat))) := by
  have assign : ∀ e, Steady fun patience =>
      (do return (← below64 patience n, e) : Draw σ (Nat × Nat)) := fun e =>
    .bind (steady_below64 pos) fun b => .pure (b, e)
  unfold randomPartition
  exact .bind (.mapM assign (List.range n)) fun assigned => .pure _

/-- The draw of places for the blocks has an outcome. -/
lemma steady_insertBlocks (subsets blocks : List (List Nat)) :
    Steady fun patience => (insertBlocks patience subsets blocks : Draw σ (List (List Nat))) := by
  induction blocks generalizing subsets with
  | nil => exact .pure subsets
  | cons block blocks ih =>
    simp only [insertBlocks]
    exact .bind (steady_below64 (Nat.succ_pos _)) fun gap => ih _

/-- The draw of a whole family has an outcome, unless the ground set is empty. -/
lemma steady_randomFamily (pos : 0 < c.groundSize) :
    Steady fun patience => (randomFamily patience c : Draw σ (List (List Nat))) := by
  unfold randomFamily
  refine .bind (steady_randomSubsets _ _ _) fun subsets => ?_
  split
  · exact .bind (steady_randomPartition pos) fun blocks => steady_insertBlocks subsets blocks
  · exact .pure subsets

/-! ## Families -/

section

variable {patience : Nat} {s s' : σ}

/-- The ground set is refused exactly if it is empty, whatever the words. -/
lemma generate_eq_emptyGroundSet_iff :
    generate patience c s = .error .emptyGroundSet ↔ c.groundSize = 0 := by
  rw [generate]
  split
  · rename_i zero
    exact ⟨fun _ => zero, fun _ => rfl⟩
  · rename_i pos
    refine ⟨fun h => ?_, fun zero => absurd zero pos⟩
    split at h
    · cases h
    · split at h
      · cases h
      · cases h

/-- The number of subsets is refused exactly if a word does not hold it, whatever the words. -/
lemma generate_eq_countOverflow_iff :
    generate patience c s = .error .countOverflow ↔ 2 ^ 64 ≤ c.groundSize * c.multiplier := by
  have many : maxCount < c.count ↔ 2 ^ 64 ≤ c.groundSize * c.multiplier := by
    rw [maxCount, Config.count]
    omega
  rw [← many, generate]
  split
  · rename_i zero
    rw [Config.count, zero, Nat.zero_mul]
    refine ⟨fun h => ?_, fun big => absurd big (Nat.not_lt_zero _)⟩
    cases h
  · split
    · rename_i big
      exact ⟨fun _ => big, fun _ => rfl⟩
    · rename_i few
      refine ⟨fun h => ?_, fun big => absurd big few⟩
      split at h
      · cases h
      · cases h

/-- What needs memory goes on as without the need, or is refused. -/
lemma reserve_bind_cases {α : Type} (bytes : Nat) (x : Except Error α) :
    (reserve bytes >>= fun _ => x) = x ∨ (reserve bytes >>= fun _ => x) = .error .tooLarge ∨
      (reserve bytes >>= fun _ => x) = .error .outOfMemory := by
  unfold reserve
  split
  · exact .inr (.inl rfl)
  · split
    · exact .inr (.inr rfl)
    · exact .inl rfl

/-- Memory can only add refusals. -/
lemma generateInMemory_cases (patience : Nat) (c : Config) (s : σ) :
    generateInMemory patience c s = generate patience c s ∨
      generateInMemory patience c s = .error .tooLarge ∨
      generateInMemory patience c s = .error .outOfMemory := by
  unfold generateInMemory
  split
  · rcases reserve_bind_cases (24 * c.count) (generate patience c s) with e | e | e
    · rw [e]
      exact reserve_bind_cases _ _
    · rw [e]
      exact .inr ((reserve_bind_cases _ _).elim .inl id)
    · rw [e]
      exact .inr ((reserve_bind_cases _ _).elim .inr id)
  · exact reserve_bind_cases _ _

section Accepted

variable (pos : 0 < c.groundSize) (few : c.groundSize * c.multiplier < 2 ^ 64)
include pos few

/-- A family that is drawn comes out. -/
lemma generate_of_some {family : List (List Nat)}
    (drawn : (randomFamily patience c).run s = some (family, s')) :
    generate patience c s = .ok (⟨c.groundSize, family⟩, s') := by
  have fits : c.count ≤ maxCount := by
    rw [maxCount, Config.count]
    omega
  exact generate_eq_ok_iff.mpr ⟨⟨pos, fits⟩, drawn, rfl⟩

/-- If the draws do not end, nothing comes out. -/
lemma generate_of_none (none : (randomFamily patience c).run s = none) :
    generate patience c s = .error .drawsExhausted := by
  have fits : ¬maxCount < c.count := by
    rw [maxCount, Config.count]
    omega
  rw [generate, if_neg pos.ne', if_neg fits, none]

/-- A configuration that is not refused comes out in the same shape with whatever words, unless they
are rejected without end. -/
lemma generate_cases (s : σ) :
    (∃ bound g s', HasShape c g ∧ Reaches s s' ∧ ∀ patience, generate patience c s =
      if bound ≤ patience then .ok (g, s') else .error .drawsExhausted) ∨
    (∃ s', Reaches s s' ∧ Stalls s') ∧
      ∀ patience, generate patience c s = .error .drawsExhausted := by
  cases steady_randomFamily pos s with
  | @settles s' bound family reaches value =>
    have drawn := value bound
    rw [if_pos (Nat.le_refl bound)] at drawn
    have shape := (yields_randomFamily bound pos s family s' drawn).hasShape pos
    refine .inl ⟨bound, _, s', shape, reaches, fun patience => ?_⟩
    have known := value patience
    split
    · rename_i enough
      rw [if_pos enough] at known
      exact generate_of_some pos few known
    · rename_i short
      rw [if_neg short] at known
      exact generate_of_none pos few known
  | stalls reaches stalls none =>
    exact .inr ⟨⟨_, reaches, stalls⟩, fun patience => generate_of_none pos few (none patience)⟩

end Accepted

end

/-- A ground set without elements is refused, with whatever multiplier and even if no word may be
taken, and so is a number of subsets beyond 64 bits; nothing else is, except for lack of memory. All
other configurations have a family, of the shape that they ask for, and patience only decides on
whether it comes out. But if one of the draws rejects all the words that come, there is none. -/
theorem generate_shapes {σ : Type} [WordSource σ] (c : Config) (s : σ) :
    (∀ patience, generate patience c s = .error .emptyGroundSet ↔ c.groundSize = 0) ∧
    (∀ patience, generate patience c s = .error .countOverflow ↔
      2 ^ 64 ≤ c.groundSize * c.multiplier) ∧
    (0 < c.groundSize → c.groundSize * c.multiplier < 2 ^ 64 →
      (∃ bound g s', HasShape c g ∧ Reaches s s' ∧ ∀ patience, generate patience c s =
        if bound ≤ patience then .ok (g, s') else .error .drawsExhausted) ∨
      (∃ s', Reaches s s' ∧ Stalls s') ∧
        ∀ patience, generate patience c s = .error .drawsExhausted) ∧
    (∀ patience, generateInMemory patience c s = generate patience c s ∨
      generateInMemory patience c s = .error .tooLarge ∨
      generateInMemory patience c s = .error .outOfMemory) :=
  ⟨fun _ => generate_eq_emptyGroundSet_iff, fun _ => generate_eq_countOverflow_iff,
    fun pos few => generate_cases pos few s, fun patience => generateInMemory_cases patience c s⟩

/-- No elements, too many subsets, and two random subsets with the two blocks of a partition in
front of them, the last block first. -/
theorem generate_shapes_two_blocks :
    generate 0 ⟨0, 7, true⟩ (Replay.mk [] ⟨0⟩) = .error .emptyGroundSet ∧
    generate 0 ⟨3, 0x8000000000000000, false⟩ (Replay.mk [] ⟨0⟩) = .error .countOverflow ∧
    generate 1 ⟨2, 1, true⟩ (Replay.mk [0, 0, 0, 0, 0, 0x8000000000000000, 0, 0] ⟨0⟩) =
      .ok (⟨2, [[1], [0], [1], [0]]⟩, ⟨[], ⟨0⟩⟩) ∧
    HasShape ⟨2, 1, true⟩ ⟨2, [[1], [0], [1], [0]]⟩ := by
  obtain ⟨empty, _, _, _⟩ := generate_shapes ⟨0, 7, true⟩ (Replay.mk [] ⟨0⟩)
  obtain ⟨_, overflow, _, _⟩ := generate_shapes ⟨3, 0x8000000000000000, false⟩ (Replay.mk [] ⟨0⟩)
  obtain ⟨_, _, accepted, _⟩ := generate_shapes ⟨2, 1, true⟩
    (Replay.mk [0, 0, 0, 0, 0, 0x8000000000000000, 0, 0] ⟨0⟩)
  have drawn : generate 1 ⟨2, 1, true⟩ (Replay.mk [0, 0, 0, 0, 0, 0x8000000000000000, 0, 0] ⟨0⟩) =
      .ok (⟨2, [[1], [0], [1], [0]]⟩, ⟨[], ⟨0⟩⟩) := by
    -- merging does not evaluate, insertion does
    have sorts : ∀ xs : List Nat, xs.mergeSort (fun a b => decide (a ≤ b)) =
        xs.insertionSort (· ≤ ·) := fun xs => List.mergeSort_eq_insertionSort _ xs
    simp only [generate, randomFamily, Config.count, Nat.reduceMul, randomSubsets, sorts]
    decide +kernel
  refine ⟨(empty 0).mpr rfl, (overflow 0).mpr (by decide), drawn, ?_⟩
  obtain ⟨bound, g, s', shape, _, value⟩ | ⟨_, none⟩ := accepted (by decide) (by decide)
  · have same := value 1
    rw [drawn] at same
    split at same
    · cases same
      exact shape
    · cases same
  · rw [none 1] at drawn
    cases drawn

end ExactCover.Generator
