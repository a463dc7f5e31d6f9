import ExactCover.Generator.Basic
import ExactCover.Proofs.Draws
import ExactCover.Proofs.Offences
import Mathlib.Data.List.Perm.Basic
import Mathlib.Data.List.Sort

/-!
# Generated families

What a generated family consists of: random subsets, as many as the configuration asks for, and, if it
asks for a partition, the blocks of one among them. `IsFamily` says this without draws, and
`isFamily_of_generate` that every family that is generated is of this kind.

The elements are shuffled over and over, but they stay the elements of the ground set, each of them
once, so every front part of them is a subset. The blocks are put in one after another, and each may
come before those that are there already. So they are not in the order of the partition, but they are
in some order, with the random subsets between them undisturbed (`Interleaving`).
-/

namespace ExactCover.Generator
open ExactCover.Random

/-! ## Interleavings -/

section

variable {α : Type} {as bs cs : List α}

/-- The third list holds the entries of the first two, those of each in their order. -/
inductive Interleaving {α : Type} : List α → List α → List α → Prop where
  | nil :
    Interleaving [] [] []
  | left {a as bs cs} :
    Interleaving as bs cs →
    Interleaving (a :: as) bs (a :: cs)
  | right {b as bs cs} :
    Interleaving as bs cs →
    Interleaving as (b :: bs) (b :: cs)

/-- A list interleaved with nothing stays as it is. -/
lemma Interleaving.refl_left (as : List α) : Interleaving as [] as := by
  induction as with
  | nil => exact .nil
  | cons a as ih => exact .left ih

/-- The second list stands in the interleaving, in order. -/
lemma Interleaving.sublist_right (h : Interleaving as bs cs) : bs.Sublist cs := by
  induction h with
  | nil => exact .refl []
  | left _ ih => exact .cons _ ih
  | right _ ih => exact .cons_cons _ ih

/-- An interleaving has the entries of both lists and no others. -/
lemma Interleaving.perm (h : Interleaving as bs cs) : cs.Perm (as ++ bs) := by
  induction h with
  | nil => exact .refl []
  | left _ ih => exact .cons _ ih
  | right _ ih => exact (List.Perm.cons _ ih).trans List.perm_middle.symm

/-- An entry put in anywhere joins those of the second list. -/
lemma Interleaving.insertIdx (h : Interleaving as bs cs) (b : α) {k : Nat} (hk : k ≤ cs.length) :
    ∃ bs', bs'.Perm (b :: bs) ∧ Interleaving as bs' (cs.insertIdx k b) := by
  induction h generalizing k with
  | nil =>
    rw [List.length_nil, Nat.le_zero_eq] at hk
    rw [hk]
    exact ⟨[b], .refl _, .right .nil⟩
  | @left a as bs cs h ih =>
    cases k with
    | zero => exact ⟨b :: bs, .refl _, .right (.left h)⟩
    | succ k =>
      obtain ⟨bs', perm, h'⟩ := ih (Nat.le_of_succ_le_succ hk)
      exact ⟨bs', perm, .left h'⟩
  | @right c as bs cs h ih =>
    cases k with
    | zero => exact ⟨b :: c :: bs, .refl _, .right (.right h)⟩
    | succ k =>
      obtain ⟨bs', perm, h'⟩ := ih (Nat.le_of_succ_le_succ hk)
      exact ⟨c :: bs', (perm.cons c).trans (.swap b c bs), .right h'⟩

end

/-! ## What there is in a family -/

variable {n : Nat}

/-- A random subset of `n` elements. -/
structure IsRandomSubset (n : Nat) (s : List Nat) : Prop where
  nonempty : s ≠ []
  ascending : s.Pairwise (· < ·)
  bounded : ∀ e ∈ s, e < n
  proper : s.length ≤ max 1 (n - 1)

/-- The blocks of a partition of `n` elements. -/
structure IsPartition (n : Nat) (blocks : List (List Nat)) : Prop where
  nonempty : ∀ b ∈ blocks, b ≠ []
  ascending : ∀ b ∈ blocks, b.Pairwise (· < ·)
  covers : blocks.flatten.Perm (List.range n)

/-- What a configuration asks for: random subsets, as many as it counts, and the blocks of a partition
among them if it wants one. -/
inductive IsFamily (c : Config) : List (List Nat) → Prop where
  | mk {drawn blocks family} :
    drawn.length = c.count →
    (∀ s ∈ drawn, IsRandomSubset c.groundSize s) →
    (if c.guaranteed then IsPartition c.groundSize blocks else blocks = []) →
    Interleaving drawn blocks family →
    IsFamily c family

/-- A partition stays one in any order of its blocks. -/
lemma IsPartition.perm {blocks blocks' : List (List Nat)} (h : IsPartition n blocks)
    (perm : blocks'.Perm blocks) : IsPartition n blocks' where
  nonempty := fun b hb => h.nonempty b (perm.mem_iff.mp hb)
  ascending := fun b hb => h.ascending b (perm.mem_iff.mp hb)
  covers := perm.flatten.trans h.covers

/-- What holds of random subsets and of blocks holds of every list of a family. -/
lemma IsFamily.forall_mem {c : Config} {family : List (List Nat)} {P : List Nat → Prop}
    (h : IsFamily c family) (drawn : ∀ s, IsRandomSubset c.groundSize s → P s)
    (block : ∀ blocks, IsPartition c.groundSize blocks → ∀ s ∈ blocks, P s) :
    ∀ s ∈ family, P s := by
  intro s hs
  cases h with
  | mk _ random partition interleaving =>
    cases List.mem_append.mp (interleaving.perm.mem_iff.mp hs) with
    | inl hs => exact drawn s (random s hs)
    | inr hs =>
      split at partition
      · exact block _ partition s hs
      · rw [partition] at hs
        exact absurd hs List.not_mem_nil

/-- No block has an element from elsewhere. -/
lemma IsPartition.bounded {blocks : List (List Nat)} (h : IsPartition n blocks) {s : List Nat}
    (hs : s ∈ blocks) : ∀ e ∈ s, e < n := fun _ he =>
  List.mem_range.mp (h.covers.mem_iff.mp (List.mem_flatten.mpr ⟨s, hs, he⟩))

/-- Every list of a family names a subset of the ground set. -/
lemma IsFamily.admissible {c : Config} {family : List (List Nat)} (h : IsFamily c family) :
    ∀ s ∈ family, Admissible (· < c.groundSize) s :=
  h.forall_mem (fun _ random => ⟨random.ascending.nodup, random.bounded⟩)
    fun _ partition s hs => ⟨(partition.ascending s hs).nodup, partition.bounded hs⟩

/-! ## Random subsets -/

variable {σ : Type} [WordSource σ] (patience : Nat)

/-- The size of a subset is at least one and less than that of a ground set with several
elements. -/
lemma yields_subsetSize (n : Nat) :
    Yields (subsetSize patience n : Draw σ Nat) fun size => 1 ≤ size ∧ size ≤ max 1 (n - 1) := by
  unfold subsetSize
  split
  · exact .bind (yields_below64 patience (n - 1)) fun a ha => .pure (by omega)
  · exact .pure (by omega)

/-- The front part of the elements in any order, sorted, is a random subset. -/
lemma isRandomSubset_of_perm {xs : List Nat} (perm : xs.Perm (List.range n)) (pos : 0 < n)
    {size : Nat} (some : 1 ≤ size) (notAll : size ≤ max 1 (n - 1)) :
    IsRandomSubset n ((xs.take size).mergeSort fun a b => decide (a ≤ b)) := by
  have sorted := List.mergeSort_perm (xs.take size) fun a b => decide (a ≤ b)
  have length : xs.length = n := by
    rw [perm.length_eq, List.length_range]
  have distinct : (xs.take size).Nodup :=
    (perm.nodup_iff.mpr List.nodup_range).sublist (List.take_sublist size xs)
  refine ⟨?_, ?_, ?_, ?_⟩
  · intro empty
    have := congrArg List.length empty
    rw [List.length_mergeSort, List.length_take, List.length_nil] at this
    omega
  · have ascending := (List.sortedLE_mergeSort (l := xs.take size)).pairwise
    refine (ascending.and (sorted.nodup_iff.mpr distinct)).imp fun h => ?_
    exact Nat.lt_of_le_of_ne h.1 h.2
  · intro e he
    have mem := List.mem_of_mem_take (sorted.mem_iff.mp he)
    exact List.mem_range.mp (perm.mem_iff.mp mem)
  · rw [List.length_mergeSort]
    exact (List.length_take_le size xs).trans notAll

/-- The subsets are drawn one after another, and the elements stay those of the ground set. -/
lemma yields_randomSubsets (pos : 0 < n) (count : Nat) {elements : Array Nat}
    (perm : elements.toList.Perm (List.range n)) (drawn : Array (List Nat)) :
    Yields (randomSubsets patience count elements drawn : Draw σ (List (List Nat))) fun all =>
      ∃ subsets, all = drawn.toList ++ subsets ∧ subsets.length = count ∧
        ∀ s ∈ subsets, IsRandomSubset n s := by
  induction count generalizing elements drawn with
  | zero => exact .pure ⟨[], (List.append_nil _).symm, rfl, nofun⟩
  | succ count ih =>
    rw [randomSubsets]
    refine .bind (yields_shuffle patience elements) fun elements' shuffled => ?_
    have perm' := shuffled.trans perm
    have size : elements'.size = n := by
      rw [← Array.length_toList, perm'.length_eq, List.length_range]
    rw [size]
    refine .bind (yields_subsetSize patience n) fun k hk => ?_
    refine (ih perm' _).mono ?_
    rintro all ⟨subsets, rfl, length, random⟩
    have random' := List.forall_mem_cons.mpr ⟨isRandomSubset_of_perm perm' pos hk.1 hk.2, random⟩
    refine ⟨_, ?_, congrArg (· + 1) length, random'⟩
    rw [Array.toList_push, List.append_assoc, List.singleton_append]

/-! ## Partitions -/

/-- The blocks are what the bins hold, without those that hold nothing. -/
lemma yields_randomPartition (n : Nat) :
    Yields (randomPartition patience n : Draw σ (List (List Nat))) (IsPartition n) := by
  unfold randomPartition
  have assign : ∀ e, Yields (do return (← below64 patience n, e) : Draw σ (Nat × Nat))
      fun x => x.1 < n ∧ x.2 = e := fun e =>
    .bind (yields_below64 patience n) fun b hb => .pure ⟨hb, rfl⟩
  refine .bind (.mapM assign (List.range n)) fun assigned each => .pure ?_
  obtain ⟨known, same⟩ := (List.forall₂_and_left _ _).mp each.flip
  have elements : assigned.map Prod.snd = List.range n := by
    rw [← List.forall₂_eq_eq_eq, List.forall₂_map_left_iff]
    exact same
  rw [Bins.toList_collect, List.map_map]
  constructor
  · intro b hb
    simpa using (List.mem_filter.mp hb).2
  · intro b hb
    obtain ⟨k, _, rfl⟩ := List.mem_map.mp (List.mem_filter.mp hb).1
    have part : (Bins.valuesFor k assigned).Sublist (List.range n) := by
      rw [← elements]
      exact List.filter_sublist.map Prod.snd
    exact List.pairwise_lt_range.sublist part
  · -- bins that stay empty are left out, and the others hold each element once
    rw [List.flatten_filter_not_isEmpty, ← List.flatMap_def]
    have sorted := Bins.flatMap_valuesFor_perm assigned n
    rwa [List.filter_eq_self.mpr fun x hx => decide_eq_true (known x hx), elements] at sorted

/-! ## Putting blocks in -/

/-- The blocks that are put in join those that are there, in some order. -/
lemma yields_insertBlocks {drawn blocks family : List (List Nat)}
    (h : Interleaving drawn blocks family) (later : List (List Nat)) :
    Yields (insertBlocks patience family later : Draw σ (List (List Nat))) fun all =>
      ∃ blocks', blocks'.Perm (blocks ++ later) ∧ Interleaving drawn blocks' all := by
  induction later generalizing blocks family with
  | nil => exact .pure ⟨blocks, by rw [List.append_nil], h⟩
  | cons block later ih =>
    rw [insertBlocks]
    refine .bind (yields_below64 patience _) fun gap hgap => ?_
    obtain ⟨blocks', perm, h'⟩ := h.insertIdx block (Nat.le_of_lt_succ hgap)
    refine (ih h').mono ?_
    rintro all ⟨blocks'', perm', h''⟩
    exact ⟨blocks'', (perm'.trans (perm.append_right later)).trans List.perm_middle.symm, h''⟩

/-- Every family that is drawn consists of random subsets and, if asked for, the blocks of a
partition. -/
lemma yields_randomFamily {c : Config} (pos : 0 < c.groundSize) :
    Yields (randomFamily patience c : Draw σ (List (List Nat))) (IsFamily c) := by
  have all : (Array.range c.groundSize).toList.Perm (List.range c.groundSize) := by
    rw [Array.toList_range]
  unfold randomFamily
  refine .bind (yields_randomSubsets patience pos c.count all #[]) ?_
  rintro _ ⟨drawn, rfl, length, random⟩
  split
  · rename_i guaranteed
    refine .bind (yields_randomPartition patience _) fun blocks partition => ?_
    refine (yields_insertBlocks patience (.refl_left _) blocks).mono ?_
    rintro family ⟨blocks', perm, interleaving⟩
    refine .mk length random ?_ interleaving
    rw [if_pos guaranteed]
    exact partition.perm perm
  · rename_i plain
    refine .pure (.mk length random ?_ (.refl_left _))
    rw [if_neg plain]

/-! ## Generation -/

variable {patience} {c : Config} {g : Generated} {s s' : σ}

/-- A family comes out exactly if the configuration is accepted and the draws end with it. -/
lemma generate_eq_ok_iff :
    generate patience c s = .ok (g, s') ↔ (0 < c.groundSize ∧ c.count ≤ maxCount) ∧
      (randomFamily patience c).run s = some (g.subsets, s') ∧ g.groundSize = c.groundSize := by
  obtain ⟨size, subsets⟩ := g
  rw [generate]
  split
  · rename_i zero
    exact ⟨nofun, fun h => absurd zero (Nat.pos_iff_ne_zero.mp h.1.1)⟩
  · rename_i pos
    split
    · rename_i big
      exact ⟨nofun, fun h => absurd big (Nat.not_lt.mpr h.1.2)⟩
    · rename_i fits
      rw [and_iff_right ⟨Nat.pos_of_ne_zero pos, Nat.le_of_not_lt fits⟩]
      cases (randomFamily patience c).run s with
      | none => exact ⟨nofun, nofun⟩
      | some drawn => simp [Prod.ext_iff, and_comm, and_left_comm, eq_comm]

/-- A family that comes out is one for its configuration. -/
lemma isFamily_of_generate (h : generate patience c s = .ok (g, s')) :
    g.groundSize = c.groundSize ∧ 0 < c.groundSize ∧ IsFamily c g.subsets := by
  obtain ⟨⟨pos, _⟩, drawn, size⟩ := generate_eq_ok_iff.mp h
  exact ⟨size, pos, yields_randomFamily patience pos s _ s' drawn⟩

end ExactCover.Generator
