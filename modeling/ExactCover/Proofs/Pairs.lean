import ExactCover.Proofs.Satisfaction
import Mathlib.Data.List.Nodup
import Mathlib.Data.Nat.Choose.Basic

/-!
# Pairs of entries

The pairs of entries that exclusivity clauses are made of. A list has one pair for each two of its
places, the pairs stand in the lexicographic order of the places (`pairs_eq_map_placePairs`), and so
their number depends on the length alone (`length_pairs`). In a list that ascends strictly two
entries stand at two places exactly if one is less than the other, which makes the pairs of values
distinct (`count_pairs`).
-/

namespace ExactCover.Encoding

variable {α β : Type} {k i j : Nat}

/-- Pairs of images are images of pairs. -/
lemma pairs_map (f : α → β) (list : List α) :
    pairs (list.map f) = (pairs list).map (Prod.map f f) := by
  induction list with
  | nil => rfl
  | cons a as ih =>
    rw [List.map_cons, pairs, pairs, ih, List.map_append, List.map_map, List.map_map]
    rfl

/-- Checking the entries of lists does not change their pairs. -/
lemma flatMap_pairs_numbers {m : Nat} (pss : List (List (Position m))) :
    (pss.map numbers).flatMap pairs =
      (pss.flatMap pairs).map (Prod.map Subtype.val Subtype.val) := by
  rw [List.flatMap_map, List.map_flatMap]
  exact List.flatMap_congr fun ps _ => pairs_map Subtype.val ps

/-! ## Places -/

/-- The pairs of places, the less one first, of a list of a length. -/
def placePairs (k : Nat) : List (Nat × Nat) :=
  (List.range k).flatMap fun i => (List.range' (i + 1) (k - (i + 1))).map (i, ·)

/-- The pairs of places are those in order within the length. -/
lemma mem_placePairs_iff : (i, j) ∈ placePairs k ↔ i < j ∧ j < k := by
  simp only [placePairs, List.mem_flatMap, List.mem_range, List.mem_map, List.mem_range'_1,
    Prod.mk.injEq]
  constructor
  · rintro ⟨i, _, j, bounds, rfl, rfl⟩
    omega
  · intro h
    exact ⟨i, by omega, j, by omega, rfl, rfl⟩

/-- The pairs of places ascend in the lexicographic order. -/
lemma pairwise_placePairs :
    (placePairs k).Pairwise fun a b => a.1 < b.1 ∨ a.1 = b.1 ∧ a.2 < b.2 := by
  rw [placePairs, List.pairwise_flatMap]
  constructor
  · intro i _
    rw [List.pairwise_map]
    exact (List.pairwise_lt_range' 1).imp fun lt => .inr ⟨rfl, lt⟩
  · refine List.pairwise_lt_range.imp fun {i i'} lt a ha b hb => ?_
    obtain ⟨_, _, rfl⟩ := List.mem_map.mp ha
    obtain ⟨_, _, rfl⟩ := List.mem_map.mp hb
    exact .inl lt

/-- The pairs with the first place, then those of the places behind it. -/
lemma placePairs_succ (k : Nat) :
    placePairs (k + 1) =
      (List.range k).map (fun j => (0, j + 1)) ++
        (placePairs k).map (Prod.map (· + 1) (· + 1)) := by
  have first : List.range' 1 k = (List.range k).map (· + 1) := by
    rw [List.range_eq_range', List.range'_succ_left]
  have later : ∀ i, (List.range' (i + 1 + 1) (k + 1 - (i + 1 + 1))).map (i + 1, ·) =
      ((List.range' (i + 1) (k - (i + 1))).map (i, ·)).map (Prod.map (· + 1) (· + 1)) := by
    intro i
    rw [List.range'_succ_left, Nat.add_sub_add_right, List.map_map, List.map_map]
    rfl
  rw [placePairs, placePairs, List.range_succ_eq_map, List.flatMap_cons, List.flatMap_map,
    List.map_flatMap, Nat.zero_add, Nat.add_sub_cancel, first, List.map_map]
  simp only [Nat.succ_eq_add_one, later]
  rfl

/-- The pairs of a list are its entries at the pairs of places. -/
lemma pairs_eq_map_placePairs (d : α) (list : List α) :
    pairs list =
      (placePairs list.length).map fun ij => (list.getD ij.1 d, list.getD ij.2 d) := by
  induction list with
  | nil => rfl
  | cons a as ih =>
    have first : as.map (a, ·) = (List.range as.length).map fun j => (a, as.getD j d) := by
      apply List.ext_getElem
      · simp
      · intro n hn _
        have inside : n < as.length := by simpa using hn
        simp [inside]
    rw [pairs, List.length_cons, placePairs_succ, List.map_append, List.map_map, List.map_map, ih,
      first]
    rfl

/-- The number of pairs of a list depends on its length alone. -/
lemma length_pairs (list : List α) :
    (pairs list).length = list.length * (list.length - 1) / 2 := by
  rw [← Nat.choose_two_right]
  induction list with
  | nil => rfl
  | cons a as ih =>
    rw [pairs, List.length_append, List.length_map, ih, List.length_cons, Nat.choose_succ_succ,
      Nat.choose_one_right]

/-! ## Ascending lists -/

variable {list : List Nat} {a b : Nat}

/-- The pairs of an ascending list are its entries two by two, the less one first. -/
lemma mem_pairs_iff (ascending : list.Pairwise (· < ·)) :
    (a, b) ∈ pairs list ↔ a < b ∧ a ∈ list ∧ b ∈ list := by
  induction list with
  | nil => simp [pairs]
  | cons c cs ih =>
    obtain ⟨least, ascending⟩ := List.pairwise_cons.mp ascending
    rw [pairs, List.mem_append, ih ascending, List.mem_cons, List.mem_cons]
    constructor
    · rintro (first | ⟨lt, ha, hb⟩)
      · obtain ⟨b, hb, e⟩ := List.mem_map.mp first
        cases e
        exact ⟨least b hb, .inl rfl, .inr hb⟩
      · exact ⟨lt, .inr ha, .inr hb⟩
    · rintro ⟨lt, rfl | ha, rfl | hb⟩
      · exact absurd lt (Nat.lt_irrefl _)
      · exact .inl (List.mem_map_of_mem hb)
      -- nothing in the list comes before its first entry
      · exact absurd lt (Nat.lt_asymm (least a ha))
      · exact .inr ⟨lt, ha, hb⟩

/-- An ascending list has no pair twice. -/
lemma nodup_pairs (ascending : list.Pairwise (· < ·)) : (pairs list).Nodup := by
  induction list with
  | nil => exact .nil
  | cons c cs ih =>
    obtain ⟨least, ascending⟩ := List.pairwise_cons.mp ascending
    have distinct : cs.Nodup := ascending.imp Nat.ne_of_lt
    rw [pairs, List.nodup_append]
    refine ⟨distinct.map fun _ _ e => (Prod.mk.inj e).2, ih ascending, ?_⟩
    rintro x first ⟨a, b⟩ later rfl
    obtain ⟨_, _, e⟩ := List.mem_map.mp first
    cases e
    exact absurd (least c ((mem_pairs_iff ascending).mp later).2.1) (Nat.lt_irrefl c)

/-- Two values make one pair if they are entries, the less one first. -/
lemma count_pairs (ascending : list.Pairwise (· < ·)) :
    (pairs list).count (a, b) = if a < b ∧ a ∈ list ∧ b ∈ list then 1 else 0 := by
  rw [(nodup_pairs ascending).count]
  simp only [mem_pairs_iff ascending]

end ExactCover.Encoding
