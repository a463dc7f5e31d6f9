import ExactCover.Generator.Printer
import ExactCover.Proofs.Shapes

/-!
# Families from the same words

How the families of two configurations compare when they are drawn from the same state of the
source. A run with a greater multiplier first draws what the run with the smaller one draws, and
goes on from there, so its family begins with the smaller one (`generate_extends`). A run with the
guarantee first draws what the run without it draws, and then a partition and a place for each of
its blocks, so its family is the other one with the blocks put in (`guarantee_adds_blocks`).

The two runs may differ in patience, which must not matter. So each comparison has two steps: the
longer run is cut where the shorter one ends, with the patience of the longer one, and what is found
there is the shorter run with any patience (`generate_unique`).
-/

namespace ExactCover.Generator
open ExactCover.Random Generated

/-! ## Taking entries out -/

section

variable {α : Type} {as bs cs : List α}

/-- The entries whose mark has the given value, in their order. -/
def marked (value : Bool) (marks : List Bool) (xs : List α) : List α :=
  ((xs.zip marks).filter (·.2 == value)).map Prod.fst

/-- An interleaving can be undone: marks tell the entries of the two lists apart. -/
lemma Interleaving.exists_marks (h : Interleaving as bs cs) :
    ∃ marks, marks.length = cs.length ∧ marked true marks cs = bs ∧ marked false marks cs = as := by
  induction h with
  | nil => exact ⟨[], rfl, rfl, rfl⟩
  | @left a as bs cs _ ih =>
    obtain ⟨marks, length, right, left⟩ := ih
    exact ⟨false :: marks, congrArg (· + 1) length, right, congrArg (a :: ·) left⟩
  | @right b as bs cs _ ih =>
    obtain ⟨marks, length, right, left⟩ := ih
    exact ⟨true :: marks, congrArg (· + 1) length, congrArg (b :: ·) right, left⟩

end

/-! ## Where a longer run passes -/

variable {σ : Type} [WordSource σ] {n k k' patience patience' : Nat} {s s' s₁ s₂ : σ}
  {f g g' : Generated}

/-- Later subsets come behind those that are drawn already. -/
lemma yields_randomSubsets_prefix (count : Nat) (elements : Array Nat) (drawn : Array (List Nat)) :
    Yields (randomSubsets patience count elements drawn : Draw σ (List (List Nat)))
      fun all => drawn.toList <+: all := by
  induction count generalizing elements drawn with
  | zero => exact .pure (List.prefix_refl _)
  | succ count ih =>
    rw [randomSubsets]
    refine .bind (yields_shuffle patience elements) fun elements' _ => ?_
    refine .bind (yields_subsetSize patience elements'.size) fun size _ => ?_
    refine (ih elements' _).mono fun all h => ?_
    rw [Array.toList_push] at h
    exact (List.prefix_append _ _).trans h

/-- A run that draws more subsets has drawn fewer of them on its way. -/
lemma exists_randomSubsets_of_add {count more : Nat} {elements : Array Nat}
    {drawn : Array (List Nat)} {all : List (List Nat)}
    (h : (randomSubsets patience (count + more) elements drawn).run s = some (all, s₂)) :
    ∃ fewer s₁, (randomSubsets patience count elements drawn).run s = some (fewer, s₁) ∧
      fewer <+: all ∧ Reaches s₁ s₂ := by
  induction count generalizing elements drawn s with
  | zero =>
    have reaches := ((steady_randomSubsets _ elements drawn).run_eq h).1
    exact ⟨_, s, rfl, yields_randomSubsets_prefix _ elements drawn s all s₂ h, reaches⟩
  | succ count ih =>
    -- the first round is the same in both runs, and it leaves the same elements and words
    rw [Nat.add_right_comm, randomSubsets, run_bind_eq_some_iff] at h
    obtain ⟨elements', s', shuffled, h⟩ := h
    rw [run_bind_eq_some_iff] at h
    obtain ⟨size, s'', sized, h⟩ := h
    obtain ⟨fewer, s₁, run, rest⟩ := ih h
    refine ⟨fewer, s₁, ?_, rest⟩
    rw [randomSubsets, run_bind_eq_some_iff]
    refine ⟨elements', s', shuffled, ?_⟩
    rw [run_bind_eq_some_iff]
    exact ⟨size, s'', sized, run⟩

/-- Without the guarantee a family is nothing but random subsets. -/
lemma randomFamily_plain :
    (randomFamily patience ⟨n, k, false⟩ : Draw σ (List (List Nat))) =
      randomSubsets patience (n * k) (Array.range n) #[] := by
  simp [randomFamily, Config.count]

/-- A family with the guarantee is drawn by drawing one without it first. -/
lemma randomFamily_guaranteed :
    (randomFamily patience ⟨n, k, true⟩ : Draw σ (List (List Nat))) =
      randomFamily patience ⟨n, k, false⟩ >>= fun subsets =>
        randomPartition patience n >>= insertBlocks patience subsets := by
  rw [randomFamily_plain]
  rfl

/-! ## Two runs -/

/-- Two runs that both end have the same family, whatever their patience. -/
lemma generate_unique {c : Config} (h : generate patience c s = .ok (g, s₁))
    (h' : generate patience' c s = .ok (g', s₂)) : g = g' ∧ s₁ = s₂ := by
  obtain ⟨⟨pos, _⟩, run, size⟩ := generate_eq_ok_iff.mp h
  obtain ⟨_, run', size'⟩ := generate_eq_ok_iff.mp h'
  obtain ⟨subsets, state⟩ := (steady_randomFamily pos).run_unique run run'
  cases g
  cases g'
  cases size.trans size'.symm
  cases subsets
  exact ⟨rfl, state⟩

/-- Without the guarantee there are as many subsets as the configuration asks for. -/
lemma length_subsets_of_plain (h : generate patience ⟨n, k, false⟩ s = .ok (g, s')) :
    g.subsets.length = n * k := by
  obtain ⟨_, _, family⟩ := isFamily_of_generate h
  cases family with
  | mk length _ none interleaving =>
    rw [if_neg Bool.false_ne_true] at none
    rw [interleaving.perm.length_eq, none, List.append_nil, length]
    rfl

/-- A run with a greater multiplier passes the end of one with a smaller multiplier. -/
lemma exists_generate_of_le (le : k ≤ k')
    (larger : generate patience ⟨n, k', false⟩ s = .ok (g', s₂)) :
    ∃ g s₁, generate patience ⟨n, k, false⟩ s = .ok (g, s₁) ∧ g.groundSize = g'.groundSize ∧
      g.subsets <+: g'.subsets ∧ Reaches s₁ s₂ := by
  obtain ⟨⟨pos, fits⟩, run, size⟩ := generate_eq_ok_iff.mp larger
  have fewer : n * k ≤ n * k' := Nat.mul_le_mul_left n le
  obtain ⟨more, total⟩ := Nat.exists_eq_add_of_le fewer
  rw [randomFamily_plain, total] at run
  obtain ⟨family, s₁, run₁, isPrefix, reaches⟩ := exists_randomSubsets_of_add run
  refine ⟨⟨n, family⟩, s₁, generate_eq_ok_iff.mpr ⟨⟨pos, fewer.trans fits⟩, ?_, rfl⟩, size.symm,
    isPrefix, reaches⟩
  rw [randomFamily_plain]
  exact run₁

/-- A run with the guarantee passes the end of the run without it. -/
lemma exists_generate_of_guaranteed
    (guaranteed : generate patience ⟨n, k, true⟩ s = .ok (g, s₂)) :
    ∃ f s₁, generate patience ⟨n, k, false⟩ s = .ok (f, s₁) ∧ f.groundSize = g.groundSize ∧
      (∃ blocks, IsPartition n blocks ∧ Interleaving f.subsets blocks g.subsets) ∧
      Reaches s₁ s₂ := by
  obtain ⟨⟨pos, fits⟩, run, size⟩ := generate_eq_ok_iff.mp guaranteed
  rw [randomFamily_guaranteed, run_bind_eq_some_iff] at run
  obtain ⟨family, s₁, run₁, run⟩ := run
  have reaches : Reaches s₁ s₂ := by
    have steady := Steady.bind (steady_randomPartition (σ := σ) pos) (steady_insertBlocks family)
    exact (steady.run_eq run).1
  rw [run_bind_eq_some_iff] at run
  obtain ⟨drawn, s', partitioned, inserted⟩ := run
  have partition := yields_randomPartition patience n s₁ drawn s' partitioned
  obtain ⟨blocks, perm, interleaving⟩ :=
    yields_insertBlocks patience (.refl_left family) drawn s' _ s₂ inserted
  exact ⟨⟨n, family⟩, s₁, generate_eq_ok_iff.mpr ⟨⟨pos, fits⟩, run₁, rfl⟩, size.symm,
    ⟨blocks, partition.perm perm, interleaving⟩, reaches⟩

/-! ## A greater multiplier -/

/-- From the same state of the source, such as that of a seed, the family of a smaller multiplier is
the first part of that of a greater one: its subsets are the first ones there, and its text, before
the brace that closes it, begins the other text. -/
theorem generate_extends {σ : Type} [WordSource σ] {n k k' patience patience' : Nat} {s s₁ s₂ : σ}
    {g g' : Generated} (le : k ≤ k') (smaller : generate patience ⟨n, k, false⟩ s = .ok (g, s₁))
    (larger : generate patience' ⟨n, k', false⟩ s = .ok (g', s₂)) :
    g.subsets = g'.subsets.take (n * k) ∧
    g.subsets.length = n * k ∧ g'.subsets.length = n * k' ∧ g.groundSize = g'.groundSize ∧
    (∃ head tail, g.render = head ++ "\x7d\n" ∧ g'.render = head ++ tail ++ "\x7d\n") ∧
    Reaches s₁ s₂ := by
  obtain ⟨g₁, s', passed, size, isPrefix, reaches⟩ := exists_generate_of_le le larger
  obtain ⟨rfl, rfl⟩ := generate_unique passed smaller
  have length := length_subsets_of_plain smaller
  have first : g₁.subsets = g'.subsets.take (n * k) := by
    rw [← length]
    exact List.prefix_iff_eq_take.mp isPrefix
  refine ⟨first, length, length_subsets_of_plain larger, size, ?_, reaches⟩
  obtain ⟨rest, family⟩ := isPrefix
  refine ⟨groundLine g₁.groundSize ++ "\x7b\n" ++ String.join (g₁.subsets.map subsetLine),
    String.join (rest.map subsetLine), rfl, ?_⟩
  rw [render, ← family, size, List.map_append, String.join_append]
  simp only [String.append_assoc]

/-- Three subsets, and six from the same words; the run for six has to draw one size again. -/
theorem generate_extends_three_of_six :
    let s : Replay := ⟨[0, 0, 0, 0, 0, 0x8000000000000000, 0, 0, 0, 0, 0x80000000,
      0xc000000000000000, 0x8000000000000000, 0, 0, 0, 0x80000000, 0, 0x8000000000000000], ⟨0⟩⟩
    ∃ s₁ s₂, generate 1 ⟨3, 1, false⟩ s = .ok (⟨3, [[1], [0, 2], [0]]⟩, s₁) ∧
      generate 2 ⟨3, 2, false⟩ s = .ok (⟨3, [[1], [0, 2], [0], [1, 2], [1], [1, 2]]⟩, s₂) ∧
      [[1], [0, 2], [0]] = [[1], [0, 2], [0], [1, 2], [1], [1, 2]].take (3 * 1) ∧
      Reaches s₁ s₂ := by
  intro s
  -- merging does not evaluate, insertion does
  have sorts := List.mergeSort_eq_insertionSort fun a b : Nat => a ≤ b
  have smaller : generate 1 ⟨3, 1, false⟩ s =
      .ok (⟨3, [[1], [0, 2], [0]]⟩, ⟨s.words.drop 9, ⟨0⟩⟩) := by
    simp only [generate, randomFamily, Config.count, Nat.reduceMul, randomSubsets, sorts]
    decide +kernel
  have larger : generate 2 ⟨3, 2, false⟩ s =
      .ok (⟨3, [[1], [0, 2], [0], [1, 2], [1], [1, 2]]⟩, ⟨[], ⟨0⟩⟩) := by
    simp only [generate, randomFamily, Config.count, Nat.reduceMul, randomSubsets, sorts]
    decide +kernel
  obtain ⟨first, _, _, _, _, reaches⟩ := generate_extends (by decide) smaller larger
  exact ⟨_, _, smaller, larger, first, reaches⟩

/-! ## The guarantee -/

/-- From the same state of the source, the guarantee adds the blocks of a partition to the family
and does nothing else to it. The subsets that are there without it stay as they are and in their
order, and are left when the blocks are taken out again. At least one block is put in, so the
family is never the same. -/
theorem guarantee_adds_blocks {σ : Type} [WordSource σ] {n k patience patience' : Nat} {s s₁ s₂ : σ}
    {f g : Generated} (plain : generate patience ⟨n, k, false⟩ s = .ok (f, s₁))
    (guaranteed : generate patience' ⟨n, k, true⟩ s = .ok (g, s₂)) :
    (∃ blocks, IsPartition n blocks ∧ Interleaving f.subsets blocks g.subsets ∧
      g.subsets.length = f.subsets.length + blocks.length ∧
      ∃ inserted, inserted.length = g.subsets.length ∧
        marked true inserted g.subsets = blocks ∧ marked false inserted g.subsets = f.subsets) ∧
    f.groundSize = g.groundSize ∧ f.subsets ≠ g.subsets ∧ Reaches s₁ s₂ := by
  obtain ⟨f₁, s', passed, size, ⟨blocks, partition, interleaving⟩, reaches⟩ :=
    exists_generate_of_guaranteed guaranteed
  obtain ⟨rfl, rfl⟩ := generate_unique passed plain
  have length := interleaving.perm.length_eq
  rw [List.length_append] at length
  have differ : f₁.subsets ≠ g.subsets := by
    intro same
    have pos := (isFamily_of_generate plain).2.1
    have one := (partition.areBlocks pos).one_le_length
    rw [← same] at length
    omega
  exact ⟨⟨blocks, partition, interleaving, length, interleaving.exists_marks⟩, size, differ,
    reaches⟩

/-- The blocks of two elements and of one stand in the middle and at the end of three subsets. -/
theorem guarantee_adds_blocks_two :
    let s : Replay := ⟨[0, 0, 0, 0, 0, 0x8000000000000000, 0, 0, 0, 0, 0xaaaaaaaaaaaaaaab, 0,
      0xc000000000000000, 0xffffffffffffffff, 0], ⟨0⟩⟩
    ∃ s₁ s₂, generate 1 ⟨3, 1, false⟩ s = .ok (⟨3, [[1], [0, 2], [0]]⟩, s₁) ∧
      generate 2 ⟨3, 1, true⟩ s = .ok (⟨3, [[1], [1], [0, 2], [0], [0, 2]]⟩, s₂) ∧
      (∃ blocks, IsPartition 3 blocks ∧
        Interleaving [[1], [0, 2], [0]] blocks [[1], [1], [0, 2], [0], [0, 2]]) ∧
      Reaches s₁ s₂ := by
  intro s
  -- merging does not evaluate, insertion does
  have sorts := List.mergeSort_eq_insertionSort fun a b : Nat => a ≤ b
  have plain : generate 1 ⟨3, 1, false⟩ s =
      .ok (⟨3, [[1], [0, 2], [0]]⟩, ⟨s.words.drop 9, ⟨0⟩⟩) := by
    simp only [generate, randomFamily, Config.count, Nat.reduceMul, randomSubsets, sorts]
    decide +kernel
  have guaranteed : generate 2 ⟨3, 1, true⟩ s =
      .ok (⟨3, [[1], [1], [0, 2], [0], [0, 2]]⟩, ⟨[], ⟨0⟩⟩) := by
    simp only [generate, randomFamily, Config.count, Nat.reduceMul, randomSubsets, sorts]
    decide +kernel
  obtain ⟨⟨blocks, partition, interleaving, _⟩, _, _, reaches⟩ :=
    guarantee_adds_blocks plain guaranteed
  exact ⟨_, _, plain, guaranteed, ⟨blocks, partition, interleaving⟩, reaches⟩

end ExactCover.Generator
