import ExactCover.Proofs.Parsing
import Mathlib.Algebra.Ring.Nat

/-!
# Filling the occurrence index

An index is filled in one run through the family: each element of each subset puts the position of
the subset at the end of its own list. An element without a list stops the run, so the run ends well
exactly if the family stays within the ground set (`foldlM_record?`), and the lists that it leaves
are the occurrence index (`occurrences?_eq_fill?`).

What the lists hold is then read off their closed form, `positionsOf`: they go through the positions
in order, and together they have one entry for each entry of the subsets.
-/

namespace ExactCover.Instance

variable {i : Instance} {p e : Nat}

/-! ## The run through the family -/

/-- The lists with a position put at the end of the list of an element, if the element has one. -/
def record? (lists : Array (Array Nat)) (entry : Nat × Nat) : Option (Array (Array Nat)) :=
  if entry.1 < lists.size then some (lists.modify entry.1 (·.push entry.2)) else none

/-- The lists that one run through the family leaves. -/
def fill? (i : Instance) : Option (Array (Array Nat)) :=
  i.memberships.foldlM record? (Array.replicate i.ground.size #[])

/-- A run stops at an element without a list, and otherwise sorts the positions into the lists. -/
lemma foldlM_record? (entries : List (Nat × Nat)) (lists : Array (Array Nat)) :
    entries.foldlM record? lists =
      if ∀ entry ∈ entries, entry.1 < lists.size then some (Bins.putAll lists entries)
      else none := by
  induction entries generalizing lists with
  | nil => rfl
  | cons entry entries ih =>
    rw [List.foldlM_cons, record?]
    by_cases known : entry.1 < lists.size
    -- no step changes the number of lists, so the entries to come are judged by the same bound
    · have later := ih (lists.modify entry.1 (·.push entry.2))
      rw [Array.size_modify] at later
      simp only [List.forall_mem_cons, known, true_and, if_true]
      exact later
    · simp only [List.forall_mem_cons, known, false_and, if_false]
      rfl

/-- The memberships name the elements of the subsets. -/
lemma forall_mem_memberships_iff :
    (∀ entry ∈ i.memberships, entry.1 < i.ground.size) ↔ i.InGround := by
  have subsets : (∀ sp ∈ i.subsets.toList.zipIdx 1, ∀ e ∈ sp.1.elements, e < i.ground.size) ↔
      ∀ s ∈ (i.subsets.toList.zipIdx 1).map Prod.fst, ∀ e ∈ s.elements, e < i.ground.size := by
    rw [List.forall_mem_map]
  rw [memberships, List.forall_mem_flatMap]
  simp only [List.forall_mem_map]
  rw [subsets, List.zipIdx_map_fst]
  simp only [Array.mem_toList_iff]
  rfl

/-- The occurrence index is what one run through the family leaves. -/
lemma occurrences?_eq_fill? :
    i.occurrences? = i.fill?.map fun lists => ⟨lists.toList.map Array.toList⟩ := by
  rw [fill?, foldlM_record?, Array.size_replicate, occurrences?]
  simp only [forall_mem_memberships_iff]
  split
  · rfl
  · rfl

/-- There is no occurrence index exactly if a subset holds something beyond the ground set. -/
lemma occurrences?_eq_none_iff :
    i.occurrences? = none ↔ ∃ s ∈ i.subsets, ∃ e ∈ s.elements, i.ground.size ≤ e := by
  rw [occurrences?, ite_eq_right_iff]
  simp [InGround]

/-! ## The lists -/

/-- Copies of a position stand together, and the positions ascend. -/
lemma pairwise_le_positionsOf : (i.positionsOf e).Pairwise (· ≤ ·) := by
  rw [positionsOf, List.pairwise_flatMap]
  constructor
  · intro p _
    rw [List.pairwise_replicate]
    exact .inr (Nat.le_refl p)
  · refine (List.pairwise_lt_range' 1).imp fun {p q} hpq x hx y hy => ?_
    rw [List.eq_of_mem_replicate hx, List.eq_of_mem_replicate hy]
    exact Nat.le_of_lt hpq

/-- The elements at a position are those of the subset there, if there is one. -/
lemma mem_elementsAt_iff : e ∈ i.elementsAt p ↔ ∃ s, i.subset? p = some s ∧ e ∈ s.elements := by
  rw [elementsAt]
  cases i.subset? p with
  | none => simp
  | some s => simp

/-- There is a membership for each element of each subset. -/
lemma length_memberships :
    i.memberships.length = (i.subsets.toList.map fun s => s.elements.length).sum := by
  rw [memberships, List.length_flatMap]
  simp only [List.length_map]
  have subsets := List.zipIdx_map_fst 1 i.subsets.toList
  conv_rhs => rw [← subsets, List.map_map]
  rfl

/-- The occurrence lists together are as long as the subsets together. -/
lemma sum_length_positionsOf (h : i.InGround) :
    ((List.range i.ground.size).map fun e => (i.positionsOf e).length).sum =
      (i.subsets.toList.map fun s => s.elements.length).sum := by
  have known : ∀ entry ∈ i.memberships, decide (entry.1 < i.ground.size) = true := fun entry hm =>
    decide_eq_true (forall_mem_memberships_iff.mpr h entry hm)
  have moved := (Bins.flatMap_valuesFor_perm i.memberships i.ground.size).length_eq
  rw [List.filter_eq_self.mpr known, List.length_map, List.length_flatMap] at moved
  simp only [valuesFor_memberships] at moved
  rw [moved, length_memberships]

/-! ## Turning a family around -/

/-- The occurrence index turns the family around. It exists unless some subset leaves the ground
set, for then the run that fills it stops. It has a list for each element, which goes through the
positions in order and repeats each as often as the subset there lists the element, so that the
index has one entry for each entry of the subsets. If no subset repeats an element, as in every
parsed instance, a list ascends strictly and names the subsets that hold its element. -/
theorem occurrences_invert_family (i : Instance) :
    i.occurrences? = i.fill?.map (fun lists => ⟨lists.toList.map Array.toList⟩) ∧
    (i.occurrences? = none ↔ ∃ s ∈ i.subsets, ∃ e ∈ s.elements, i.ground.size ≤ e) ∧
    (∀ o, i.occurrences? = some o →
      o.size = i.ground.size ∧
      (∀ e < i.ground.size, o.of? e = some ((List.range' 1 i.subsetCount).flatMap fun p =>
        List.replicate ((i.elementsAt p).count e) p)) ∧
      (∀ list ∈ o.lists, list.Pairwise (· ≤ ·) ∧ ∀ p ∈ list, 1 ≤ p ∧ p ≤ i.subsetCount) ∧
      (o.lists.map List.length).sum = (i.subsets.toList.map fun s => s.elements.length).sum ∧
      (i.NoRepeats → ∀ e list, o.of? e = some list → list.Pairwise (· < ·) ∧
        ∀ p, p ∈ list ↔ ∃ s, i.subset? p = some s ∧ e ∈ s.elements)) ∧
    ∀ text, parse text = .ok i → i.InGround ∧ i.NoRepeats := by
  refine ⟨occurrences?_eq_fill?, occurrences?_eq_none_iff, fun o h => ?_,
    fun text h => ⟨inGround_of_parse h, noRepeats_of_parse h⟩⟩
  have inGround : i.InGround := by
    by_contra stray
    rw [occurrences?, if_neg stray] at h
    cases h
  rw [occurrences?_eq_some inGround] at h
  cases h
  have listOf : ∀ e list, ((List.range i.ground.size).map i.positionsOf)[e]? = some list →
      list = i.positionsOf e := by
    intro e list he
    rw [List.getElem?_map] at he
    obtain ⟨e', at_e, rfl⟩ := Option.map_eq_some_iff.mp he
    obtain ⟨_, rfl⟩ := List.getElem?_eq_some_iff.mp at_e
    rw [List.getElem_range]
  refine ⟨?_, ?_, ?_, ?_, ?_⟩
  · rw [OccurrenceIndex.size, List.length_map, List.length_range]
  · intro e he
    rw [OccurrenceIndex.of?, List.getElem?_map, List.getElem?_range he]
    rfl
  · rw [List.forall_mem_map]
    exact fun e _ => ⟨pairwise_le_positionsOf, fun p hp => range_of_mem_positionsOf hp⟩
  · rw [List.map_map]
    exact sum_length_positionsOf inGround
  · intro noRepeats e list he
    rw [listOf e list he]
    exact ⟨pairwise_lt_positionsOf noRepeats, fun p => mem_positionsOf.trans mem_elementsAt_iff⟩

/-- The first of three subsets lists an element twice, a family with an element too many has no
index, and the lists of a parsed instance ascend. -/
theorem occurrences_invert_family_repeated_and_stray :
    (∃ (i : Instance) (o : OccurrenceIndex), i.subsets = #[⟨[1, 1, 0]⟩, ⟨[]⟩, ⟨[0, 1]⟩] ∧
      i.occurrences? = some o ∧ o.of? 0 = some [1, 3] ∧ o.of? 1 = some [1, 1, 3] ∧
      (o.lists.map List.length).sum = 5) ∧
    (∃ i : Instance, i.subsets = #[⟨[0]⟩, ⟨[2]⟩] ∧ i.ground.size = 2 ∧ i.occurrences? = none) ∧
    ∃ i o list, parse "\x7ba b\x7d\n\x7b\x7bb\x7d\x7b\x7d\x7bb a\x7d\x7d" = .ok i ∧
      i.occurrences? = some o ∧ o.of? 1 = some list ∧ list.Pairwise (· < ·) ∧ 3 ∈ list := by
  obtain ⟨g, made⟩ := GroundSet.exists_ofDistinct_iff.mpr (show ["a", "b"].Nodup by decide)
  have size : g.size = 2 := GroundSet.size_of_ofDistinct made
  refine ⟨?_, ?_, ?_⟩
  · obtain ⟨_, stops, ends, _⟩ := occurrences_invert_family ⟨g, #[⟨[1, 1, 0]⟩, ⟨[]⟩, ⟨[0, 1]⟩]⟩
    cases index : occurrences? ⟨g, #[⟨[1, 1, 0]⟩, ⟨[]⟩, ⟨[0, 1]⟩]⟩ with
    | none =>
      obtain ⟨s, hs, e, he, stray⟩ := stops.mp index
      rw [size] at stray
      have known : ∀ s ∈ #[Subset.mk [1, 1, 0], ⟨[]⟩, ⟨[0, 1]⟩], ∀ e ∈ s.elements, e < 2 := by
        decide
      exact absurd (known s hs e he) (Nat.not_lt_of_le stray)
    | some o =>
      obtain ⟨_, lists, _, total, _⟩ := ends o index
      have first := lists 0 (size ▸ by decide)
      have second := lists 1 (size ▸ by decide)
      exact ⟨_, o, rfl, index, first, second, total⟩
  · obtain ⟨_, stops, _⟩ := occurrences_invert_family ⟨g, #[⟨[0]⟩, ⟨[2]⟩]⟩
    have second : Subset.mk [2] ∈ #[Subset.mk [0], ⟨[2]⟩] := by simp
    exact ⟨_, rfl, size, stops.mpr ⟨_, second, 2, List.mem_singleton_self 2, Nat.le_of_eq size⟩⟩
  · have form : InstanceText ["a", "b"] [["b"], [], ["b", "a"]]
        "\x7ba b\x7d\n\x7b\x7bb\x7d\x7b\x7d\x7bb a\x7d\x7d" :=
      instanceText_iff_read.mpr ⟨by decide +kernel, by decide +kernel⟩
    obtain ⟨i, h⟩ := exists_parse_eq_ok form ⟨by decide, by decide, by decide, by decide⟩
    obtain ⟨_, _, ends, parsed⟩ := occurrences_invert_family i
    obtain ⟨inGround, noRepeats⟩ := parsed _ h
    have index := occurrences?_eq_some inGround
    obtain ⟨_, lists, _, _, ascending⟩ := ends _ index
    have second := lists 1 (size_of_parse form h ▸ by decide)
    obtain ⟨ascends, members⟩ := ascending noRepeats 1 _ second
    have third : i.subset? 3 = some ⟨[1, 0]⟩ := subset?_of_parse form h 2
    exact ⟨i, _, _, h, index, second, ascends, (members 3).mpr ⟨_, third, by decide⟩⟩

end ExactCover.Instance
