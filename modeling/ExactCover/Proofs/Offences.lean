import ExactCover.Proofs.Parsing

/-!
# Lists that name no subset

A list names a subset if its entries are distinct and belong to the ground set. In a family where some
list does not, there is a first entry out of place (`exists_firstOffence`). Reading a family stops at
the first token out of place and names it: as repeated, or as unknown (`readSubset_eq_error`,
`readSubsets_eq_error`).
-/

namespace ExactCover

variable {α : Type} {P : α → Prop}

/-! ## The first entry out of place -/

/-- The entries of the list are distinct and have the property. -/
def Admissible (P : α → Prop) (list : List α) : Prop :=
  list.Nodup ∧ ∀ a ∈ list, P a

instance [DecidableEq α] [DecidablePred P] (list : List α) : Decidable (Admissible P list) :=
  inferInstanceAs (Decidable (list.Nodup ∧ ∀ a ∈ list, P a))

/-- In reading order, `a` is the first entry of the lists that is out of place. It stands in `list`
behind `front`, and it is there already or lacks the property. -/
inductive FirstOffence (P : α → Prop) : List (List α) → List α → List α → α → Prop where
  | mk {lists before list after front a rest} :
    lists = before ++ list :: after →
    (∀ l ∈ before, Admissible P l) →
    list = front ++ a :: rest →
    Admissible P front →
    a ∈ front ∨ ¬P a →
    FirstOffence P lists list front a

/-- A list that is not admissible has a first entry out of place. -/
lemma exists_offence {list : List α} (h : ¬Admissible P list) :
    ∃ front a rest, list = front ++ a :: rest ∧ Admissible P front ∧ (a ∈ front ∨ ¬P a) := by
  induction list using List.reverseRecOn with
  | nil => exact absurd ⟨.nil, nofun⟩ h
  | append_singleton list a ih =>
    by_cases fine : Admissible P list
    · refine ⟨list, a, [], rfl, fine, ?_⟩
      by_contra allowed
      rw [not_or, not_not] at allowed
      refine h ⟨?_, ?_⟩
      · rw [← List.concat_eq_append, List.nodup_concat]
        exact ⟨allowed.1, fine.1⟩
      · rw [List.forall_mem_append, List.forall_mem_singleton]
        exact ⟨fine.2, allowed.2⟩
    · obtain ⟨front, b, rest, rfl, rest_fine, offence⟩ := ih fine
      exact ⟨front, b, rest ++ [a], by simp, rest_fine, offence⟩

/-- If some list is not admissible, one entry out of place comes first. -/
lemma exists_firstOffence {lists : List (List α)} (h : ¬∀ l ∈ lists, Admissible P l) :
    ∃ list front a, FirstOffence P lists list front a := by
  obtain ⟨before, list, after, lists_split, all, bad⟩ := Traversal.exists_first h
  obtain ⟨front, a, rest, split, fine, out⟩ := exists_offence bad
  exact ⟨list, front, a, .mk lists_split all split fine out⟩

end ExactCover

namespace ExactCover.Instance
open Brace Text

/-! ## Reading up to it -/

variable {ground : GroundSet} {group : Group}

/-- The tokens behind those that were read are read with these seen. -/
lemma readElements_append {seen es : List Nat} {front : List String}
    (h : readElements ground group seen front = .ok es) (us : List String) :
    readElements ground group seen (front ++ us) = readElements ground group es.reverse us := by
  induction front generalizing seen with
  | nil =>
    cases h
    rw [List.nil_append, List.reverse_reverse]
  | cons t front ih =>
    rw [readElements] at h
    rw [List.cons_append, readElements]
    split at h
    · cases h
    · split at h
      · cases h
      · rename_i e _ fresh
        rw [if_neg fresh]
        exact ih h

/-- A group is refused for its first token out of place: one that stands there before, or one that
the ground set does not have. -/
lemma readSubset_eq_error {front rest : List String} {t : String}
    (split : group.tokens = front ++ t :: rest)
    (fine : Admissible (· ∈ ground.tokens.toList) front) :
    (t ∈ front → readSubset ground group =
      .error (.duplicateSubsetElement t (String.ofList (trim group.inner)))) ∧
    (t ∉ ground.tokens.toList → readSubset ground group = .error (.unknownElement t)) := by
  have read : readElements ground group [] front = .ok (front.map ground.tokens.toList.idxOf) :=
    readElements_eq_ok_iff.mpr ⟨⟨fine.2, fine.1, nofun⟩, rfl⟩
  rw [readSubset, split, readElements_append read]
  constructor
  · intro repeated
    rw [readElements, GroundSet.indexOf?_of_mem (fine.2 t repeated)]
    dsimp only
    rw [if_pos (List.mem_reverse.mpr (List.mem_map_of_mem repeated))]
    rfl
  · intro unknown
    rw [readElements, GroundSet.indexOf?_eq_none_iff.mpr unknown]
    rfl

/-- The first group that is refused decides, if the text has the form of a family. -/
lemma readSubsets_eq_error {cs : List Char} {before after : List Group} {err : FormatError}
    (read : readFamily cs = .ok (before ++ group :: after))
    (fine : ∀ g ∈ before, Admissible (· ∈ ground.tokens.toList) g.tokens)
    (refused : readSubset ground group = .error err) : readSubsets ground cs = .error err := by
  have stop : (before ++ group :: after).mapM (readSubset ground) = .error err := by
    refine Traversal.mapM_eq_error_iff.mpr ⟨before, group, after, rfl, fun g hg => ?_, refused⟩
    exact ⟨_, readSubset_eq_ok_iff.mpr ⟨fine g hg, rfl⟩⟩
  rw [readSubsets, read]
  exact stop

/-- Parsing reads the first line, and then the family over its ground set. -/
lemma parse_eq (text : String) :
    parse text = readGround (cutFirstLine text.toList).1 >>= fun ground =>
      readSubsets ground (cutFirstLine text.toList).2 >>= fun subsets =>
        .ok ⟨ground, subsets.toArray⟩ :=
  rfl

/-- Behind a good first line the error of the family is reported. -/
lemma parse_eq_error_of_readSubsets {text : String} {err : FormatError}
    (first : readGround (cutFirstLine text.toList).1 = .ok ground)
    (refused : readSubsets ground (cutFirstLine text.toList).2 = .error err) :
    parse text = .error err := by
  rw [parse_eq, Traversal.bind_eq_error_iff]
  exact .inr ⟨ground, first, Traversal.bind_eq_error_iff.mpr (.inl refused)⟩

/-- A group without tokens on the first line is the empty ground set. -/
lemma parse_eq_emptyGroundSet {text : String} (h : SingleText [] (cutFirstLine text.toList).1) :
    parse text = .error .emptyGroundSet := by
  obtain ⟨group, read, empty⟩ := singleText_iff.mp h
  have refused : readGround (cutFirstLine text.toList).1 = .error .emptyGroundSet := by
    rw [readGround, read]
    dsimp only
    rw [empty]
    rfl
  rw [parse_eq, refused]
  rfl

end ExactCover.Instance
