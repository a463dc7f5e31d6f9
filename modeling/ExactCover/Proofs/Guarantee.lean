import ExactCover.Proofs.Families
import ExactCover.Proofs.Rendering
import ExactCover.Proofs.Verification
import ExactCover.Random.SplitMix
import Mathlib.Data.Finset.Basic

/-!
# The guaranteed cover

A family that is generated with a partition has an exact cover, and every stage finds it: the text of
the family is parsed into an instance with these subsets, the positions of the blocks are an exact
cover of the instance, they satisfy its formula, and a model that selects them passes verification.

The blocks stand in the family in some order with other subsets between them. So the positions that
they have at the end are the positions of a sublist (`exists_positions_of_sublist`), and nothing needs
to be known of the positions that they had on the way there.
-/

namespace ExactCover.Instance

variable {i : Instance} {ps : Set Nat} {isTrue : Nat → Bool} {m : Model}

/-! ## Exact covers -/

/-- The family, position by position. -/
lemma map_elements_eq : i.subsets.toList.map Subset.elements = i.positions.map i.elementsAt := by
  have pairs := congrArg (List.map Prod.fst) (zipIdx_subsets (i := i))
  rw [List.map_map, List.map_map] at pairs
  rw [← List.zipIdx_map_fst 1 i.subsets.toList, List.map_map]
  exact pairs

/-- Subsets that occur in this order do so at positions in this order. -/
lemma exists_positions_of_sublist {lists : List (List Nat)}
    (h : lists.Sublist (i.subsets.toList.map Subset.elements)) :
    ∃ list : List Nat, list.Sublist i.positions ∧ lists = list.map i.elementsAt := by
  rw [map_elements_eq] at h
  exact List.sublist_map_iff.mp h

/-- Positions whose subsets together list each element once are an exact cover. -/
lemma isExactCover_of_perm {list : List Nat} (inFamily : list.Sublist i.positions)
    (covers : (list.flatMap i.elementsAt).Perm (List.range i.ground.size)) :
    i.IsExactCover {p | p ∈ list} where
  inFamily := fun p hp => mem_positions.mp (inFamily.subset hp)
  disjoint := by
    have distinct := covers.nodup_iff.mpr List.nodup_range
    have apart := (List.nodup_flatMap.mp distinct).2
    have : Std.Symm (Function.onFun List.Disjoint i.elementsAt) := ⟨fun _ _ h => h.symm⟩
    intro p hp q hq ne
    have none := apart.forall hp hq ne
    exact Set.disjoint_left.mpr fun e hep heq => none hep heq
  union_eq := by
    ext e
    simp only [Set.mem_iUnion, Set.mem_Iio, ← List.mem_range, ← covers.mem_iff, List.mem_flatMap]
    exact ⟨fun ⟨p, hp, he⟩ => ⟨p, hp, he⟩, fun ⟨p, hp, he⟩ => ⟨p, hp, he⟩⟩

/-- An exact cover picks each element once among its occurrences. -/
lemma IsExactCover.countP_eq_one (noRepeats : i.NoRepeats) (cover : i.IsExactCover ps)
    (same : ∀ p, isTrue p = true ↔ p ∈ ps) {e : Nat} (he : e < i.ground.size) :
    (i.positionsOf e).countP isTrue = 1 := by
  rw [countP_positionsOf_eq_one_iff noRepeats]
  simp only [same]
  exact cover.existsUnique he

/-- A model that makes the positions of an exact cover true, and no others, passes verification. -/
lemma IsExactCover.verify_eq_ok (inGround : i.InGround) (noRepeats : i.NoRepeats)
    (cover : i.IsExactCover ps) (same : ∀ p, m.isTrue p = true ↔ p ∈ ps) :
    i.verify m = .ok () := by
  have known : ∀ v ∈ m.trueVars, v ∈ i.positions := by
    intro v hv
    rw [Model.mem_trueVars, same] at hv
    exact mem_positions.mpr (cover.inFamily hv)
  apply (verify_eq_ok_iff inGround).mpr
  refine ⟨known, fun e he => ?_⟩
  rw [trueVars_eq_filter known, ← countP_positionsOf]
  exact cover.countP_eq_one noRepeats same he

end ExactCover.Instance

namespace ExactCover.Model

variable {m : Model} {ps : Finset Nat}

/-- The literals are the positive ones of the variables. -/
def Selects (m : Model) (ps : Finset Nat) : Prop :=
  ∀ l, l ∈ m.literals ↔ l.isPositive = true ∧ l.var ∈ ps

/-- What a selecting model makes true is what it selects. -/
lemma Selects.isTrue_iff (h : m.Selects ps) (known : ∀ p ∈ ps, 1 ≤ p ∧ p ≤ maxVariable) (p : Nat) :
    m.isTrue p = true ↔ p ∈ ps := by
  simp only [isTrue, List.any_eq_true, Bool.and_eq_true, beq_iff_eq]
  constructor
  · rintro ⟨l, hl, _, rfl⟩
    exact ((h l).mp hl).2
  · intro hp
    have listed := (h (.ofVariable p true (known p hp))).mpr ⟨by simp, by simpa using hp⟩
    exact ⟨_, listed, by simp, by simp⟩

/-- There is a model for every finite set of variables. -/
lemma exists_selects (known : ∀ p ∈ ps, 1 ≤ p ∧ p ≤ maxVariable) : ∃ m : Model, m.Selects ps := by
  refine ⟨⟨ps.toList.pmap (fun p hp => .ofVariable p true hp) ?_⟩, fun l => ?_⟩
  · exact fun p hp => known p (Finset.mem_toList.mp hp)
  · rw [List.mem_pmap]
    constructor
    · rintro ⟨p, hp, rfl⟩
      exact ⟨by simp, by simpa using hp⟩
    · rintro ⟨positive, hl⟩
      exact ⟨l.var, Finset.mem_toList.mpr hl, Literal.ofVariable_var positive (known _ hl)⟩

end ExactCover.Model

namespace ExactCover.Generator
open ExactCover.Random Generated

/-! ## From the family to the cover -/

/-- The blocks of a family with a partition stand at positions that are an exact cover. -/
lemma exists_cover_of_isFamily {c : Config} {family : List (List Nat)} {i : Instance}
    (h : IsFamily c family) (guaranteed : c.guaranteed = true)
    (ground : i.ground.size = c.groundSize)
    (subsets : i.subsets.toList = family.map Subset.mk) :
    ∃ ps : Finset Nat, i.IsExactCover ps := by
  cases h with
  | @mk drawn blocks _ _ _ partition interleaving =>
    rw [if_pos guaranteed] at partition
    have elements : i.subsets.toList.map Subset.elements = family := by
      rw [subsets, List.map_map]
      exact List.map_id family
    have sublist := interleaving.sublist_right
    rw [← elements] at sublist
    obtain ⟨list, inFamily, rfl⟩ := Instance.exists_positions_of_sublist sublist
    have covers := partition.covers
    rw [← List.flatMap_def, ← ground] at covers
    refine ⟨list.toFinset, ?_⟩
    rw [List.coe_toFinset]
    exact Instance.isExactCover_of_perm inFamily covers

/-- A family with a partition comes back from its text with exactly its subsets, and some positions
are an exact cover of it. If the variables suffice, they satisfy the formula, and every model that
selects them, of which there is one, passes verification. -/
theorem generate_guaranteed {σ : Type} [WordSource σ] (patience : Nat) (c : Config) (s s' : σ)
    (g : Generated) (guaranteed : c.guaranteed = true) (h : generate patience c s = .ok (g, s')) :
    ∃ i, Instance.parse g.render = .ok i ∧ i.ground.size = c.groundSize ∧
      i.subsets.toList = g.subsets.map Subset.mk ∧
      ∃ ps : Finset Nat, i.IsExactCover ps ∧
        (i.subsetCount ≤ maxVariable →
          (∃ f, i.EncodedAs f ∧ f.holds (fun p => decide (p ∈ ps)) = true) ∧
          (∃ m : Model, m.Selects ps) ∧ ∀ m : Model, m.Selects ps → i.verify m = .ok ()) := by
  obtain ⟨size, pos, family⟩ := isFamily_of_generate h
  have fine := family.admissible
  rw [← size] at pos fine
  obtain ⟨i, parsed, tokens, subsets⟩ := parse_render_of_admissible pos fine
  have ground : i.ground.size = c.groundSize := by
    rw [GroundSet.size, ← Array.length_toList, tokens, List.length_map, List.length_range', size]
  have inGround := Instance.inGround_of_parse parsed
  have noRepeats := Instance.noRepeats_of_parse parsed
  obtain ⟨ps, cover⟩ := exists_cover_of_isFamily family guaranteed ground subsets
  refine ⟨i, parsed, ground, subsets, ps, cover, fun fits => ?_⟩
  have known : ∀ p ∈ ps, 1 ≤ p ∧ p ≤ maxVariable := by
    intro p hp
    have inFamily := cover.inFamily hp
    exact ⟨inFamily.1, inFamily.2.trans fits⟩
  refine ⟨?_, Model.exists_selects known, fun m selects => ?_⟩
  · obtain ⟨f, encoded, meaning⟩ := Instance.exists_encodedAs inGround fits
    refine ⟨f, encoded, (meaning _).mpr fun e he => ?_⟩
    exact cover.countP_eq_one noRepeats (fun p => decide_eq_true_iff) he
  · exact cover.verify_eq_ok inGround noRepeats (selects.isTrue_iff known)

/-- The block of the element in the middle comes behind the other in the partition and before it in the
family, after a word that was rejected. -/
theorem generate_guaranteed_two_blocks :
    generate 2 ⟨3, 1, true⟩ (Replay.mk [0, 0, 0, 0, 0, 0x8000000000000000, 0, 0, 0, 0,
      0xaaaaaaaaaaaaaaab, 0, 0xc000000000000000, 0xffffffffffffffff, 0] ⟨0⟩) =
        .ok (⟨3, [[1], [1], [0, 2], [0], [0, 2]]⟩, ⟨[], ⟨0⟩⟩) ∧
    ∃ i, Instance.parse (render ⟨3, [[1], [1], [0, 2], [0], [0, 2]]⟩) = .ok i ∧
      ∃ ps : Finset Nat, i.IsExactCover ps ∧
        (∃ f, i.EncodedAs f ∧ f.holds (fun p => decide (p ∈ ps)) = true) ∧
        ∃ m : Model, m.Selects ps ∧ i.verify m = .ok () := by
  have drawn : generate 2 ⟨3, 1, true⟩ (Replay.mk [0, 0, 0, 0, 0, 0x8000000000000000, 0, 0, 0, 0,
      0xaaaaaaaaaaaaaaab, 0, 0xc000000000000000, 0xffffffffffffffff, 0] ⟨0⟩) =
        .ok (⟨3, [[1], [1], [0, 2], [0], [0, 2]]⟩, ⟨[], ⟨0⟩⟩) := by
    -- merging does not evaluate, insertion does
    have sorts : ∀ xs : List Nat, xs.mergeSort (fun a b => decide (a ≤ b)) =
        xs.insertionSort (· ≤ ·) := fun xs => List.mergeSort_eq_insertionSort _ xs
    simp only [generate, randomFamily, Config.count, Nat.reduceMul, randomSubsets, sorts]
    decide +kernel
  obtain ⟨i, parsed, _, subsets, ps, cover, found⟩ := generate_guaranteed 2 _ _ _ _ rfl drawn
  have fits : i.subsetCount ≤ maxVariable := by
    rw [Instance.subsetCount, ← Array.length_toList, subsets]
    decide
  obtain ⟨satisfied, ⟨m, selects⟩, verified⟩ := found fits
  exact ⟨drawn, i, parsed, ps, cover, satisfied, m, selects, verified m selects⟩

end ExactCover.Generator
