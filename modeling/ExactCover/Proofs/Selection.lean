import ExactCover.Proofs.Verification
import Mathlib.Data.List.Perm.Basic
import Mathlib.Order.Bounds.Defs

/-!
# Selection of subsets

The list of selected subsets, which is made for a reader, and verification look the same variables up
and agree on what is selected. Both fail at the least true variable beyond the family
(`mapM_trueVars_eq_error_iff`), and otherwise the model passes verification exactly if the listed
tokens, taken together, are those of the ground set in some order
(`selected_agrees_with_verify`). One side counts numbers and the other lists tokens; numbers and
tokens of a ground set determine each other (`filterMap_element?_perm_iff`).
-/

namespace ExactCover.Instance

variable {i : Instance} {m : Model} {p : Nat}

/-! ## Variables beyond the family -/

/-- In an ascending list the first entry with a property is the least one. -/
lemma isLeast_iff_first {vs : List Nat} (ascending : vs.Pairwise (· < ·)) {P : Nat → Prop} {v : Nat} :
    IsLeast {w | w ∈ vs ∧ P w} v ↔
      ∃ before after, vs = before ++ v :: after ∧ (∀ w ∈ before, ¬P w) ∧ P v := by
  constructor
  · rintro ⟨⟨mem, hv⟩, least⟩
    obtain ⟨before, after, rfl⟩ := List.append_of_mem mem
    refine ⟨before, after, rfl, fun w hw hp => ?_, hv⟩
    have smaller := (List.pairwise_append.mp ascending).2.2 w hw v List.mem_cons_self
    exact Nat.not_le_of_lt smaller (least ⟨List.mem_append_left _ hw, hp⟩)
  · rintro ⟨before, after, rfl, none, hv⟩
    refine ⟨⟨List.mem_append_right before List.mem_cons_self, hv⟩, ?_⟩
    rintro w ⟨mem, hw⟩
    rcases List.mem_append.mp mem with mem | mem
    · exact absurd hw (none w mem)
    · rcases List.mem_cons.mp mem with rfl | mem
      · exact le_rfl
      · have later := (List.pairwise_append.mp ascending).2.1
        exact (List.rel_of_pairwise_cons later mem).le

/-- The true variables that have no subset are those beyond the family. -/
lemma isTrue_and_lt_iff {v : Nat} :
    m.isTrue v = true ∧ i.subsetCount < v ↔ v ∈ m.trueVars ∧ v ∉ i.positions := by
  rw [Model.mem_trueVars]
  refine and_congr_right fun h => ?_
  have := Model.pos_of_isTrue h
  rw [mem_positions]
  omega

/-- A look-up of the true variables that fails exactly beyond the family fails at the least variable
there. -/
lemma mapM_trueVars_eq_error_iff {β : Type} {f : Nat → Except CoverError β}
    (known : ∀ p, (∃ b, f p = .ok b) ↔ p ∈ i.positions)
    (unknown : ∀ p e, f p = .error e ↔ p ∉ i.positions ∧ e = .unknownVariable p i.subsetCount)
    {e : CoverError} :
    m.trueVars.mapM f = .error e ↔ ∃ v,
      IsLeast {w | m.isTrue w = true ∧ i.subsetCount < w} v ∧
        e = .unknownVariable v i.subsetCount := by
  simp only [Traversal.mapM_eq_error_iff, known, unknown, isTrue_and_lt_iff,
    isLeast_iff_first m.pairwise_lt_trueVars, not_not]
  constructor
  · rintro ⟨before, v, after, split, fine, outside, rfl⟩
    exact ⟨v, ⟨before, after, split, fine, outside⟩, rfl⟩
  · rintro ⟨v, ⟨before, after, split, fine, outside⟩, rfl⟩
    exact ⟨before, v, after, split, fine, outside, rfl⟩

/-! ## Selected subsets -/

/-- The tokens of the subset at a position, sorted. -/
def sortedTokensAt (i : Instance) (p : Nat) : List String :=
  ((i.elementsAt p).filterMap i.ground.element?).mergeSort fun a b => decide (a ≤ b)

/-- The step of a selection. -/
def selectAt (i : Instance) (p : Nat) : Except CoverError (List String) :=
  match i.tokens? p with
  | some ts => .ok (ts.mergeSort fun a b => decide (a ≤ b))
  | none => .error (.unknownVariable p i.subsetCount)

/-- There are subsets at the positions of the family and at no others. -/
lemma subset?_eq_none_iff : i.subset? p = none ↔ p ∉ i.positions := by
  rw [mem_positions, subset?.eq_def]
  cases p with
  | zero => simp
  | succ n =>
    have : i.subsets[n]? = none ↔ i.subsets.size ≤ n := Array.getElem?_eq_none_iff
    rw [this, subsetCount]
    omega

/-- A selection takes a step at the positions of the family, with their tokens sorted. -/
lemma selectAt_eq_ok_iff {p : Nat} {ts : List String} :
    i.selectAt p = .ok ts ↔ p ∈ i.positions ∧ ts = i.sortedTokensAt p := by
  unfold selectAt sortedTokensAt elementsAt tokens?
  cases h : i.subset? p with
  | none =>
    have outside := subset?_eq_none_iff.mp h
    exact ⟨nofun, fun e => absurd e.1 outside⟩
  | some s =>
    have inside : p ∈ i.positions := by
      by_contra outside
      rw [subset?_eq_none_iff.mpr outside] at h
      cases h
    simp [inside, eq_comm]

/-- A selection stops at what is no position of the family. -/
lemma selectAt_eq_error_iff {p : Nat} {e : CoverError} :
    i.selectAt p = .error e ↔ p ∉ i.positions ∧ e = .unknownVariable p i.subsetCount := by
  rw [← subset?_eq_none_iff]
  unfold selectAt tokens?
  cases i.subset? p with
  | none => simp [eq_comm]
  | some s => simp

/-- What is selected at a position are its tokens, sorted. -/
lemma selectAt_eq_ok_iff_tokens {p : Nat} {us : List String} :
    i.selectAt p = .ok us ↔
      ∃ ts, i.tokens? p = some ts ∧ us = ts.mergeSort fun a b => decide (a ≤ b) := by
  unfold selectAt
  cases i.tokens? p with
  | none => simp
  | some ts => simp [eq_comm]

/-- The selected subsets are listed by ascending position if no variable lies beyond the family. -/
lemma selected_eq_ok_iff {lists : List (List String)} :
    i.selected m = .ok lists ↔
      (∀ v ∈ m.trueVars, v ∈ i.positions) ∧ lists = m.trueVars.map i.sortedTokensAt :=
  Traversal.mapM_eq_ok_iff_map fun _ _ => selectAt_eq_ok_iff

/-- Verification stops at what is no position of the family, as a selection does. -/
lemma checkSubset_eq_error_iff (inGround : i.InGround) {p : Nat} {e : CoverError} :
    i.checkSubset p = .error e ↔ p ∉ i.positions ∧ e = .unknownVariable p i.subsetCount := by
  by_cases inside : p ∈ i.positions
  · rw [(checkSubset_eq_ok_iff inGround p _).mpr ⟨inside, rfl⟩]
    exact ⟨nofun, fun h => absurd inside h.1⟩
  · rw [checkSubset, subset?_eq_none_iff.mpr inside, Except.error.injEq, eq_comm]
    exact ⟨fun h => ⟨inside, h⟩, fun h => h.2⟩

/-- A selection fails at the least variable beyond the family. -/
lemma selected_eq_error_iff {e : CoverError} :
    i.selected m = .error e ↔ ∃ v, IsLeast {w | m.isTrue w = true ∧ i.subsetCount < w} v ∧
      e = .unknownVariable v i.subsetCount := by
  refine mapM_trueVars_eq_error_iff (f := i.selectAt) (fun p => ?_) fun p e => selectAt_eq_error_iff
  simp only [selectAt_eq_ok_iff, exists_and_left, exists_eq, and_true]

/-- Verification fails in the same way, before it counts. -/
lemma verify_eq_error_of_isLeast (inGround : i.InGround) {v : Nat}
    (h : IsLeast {w | m.isTrue w = true ∧ i.subsetCount < w} v) :
    i.verify m = .error (.unknownVariable v i.subsetCount) := by
  have stop : m.trueVars.mapM i.checkSubset = .error (.unknownVariable v i.subsetCount) := by
    refine (mapM_trueVars_eq_error_iff (fun p => ?_)
      fun p e => checkSubset_eq_error_iff inGround).mpr ⟨v, h, rfl⟩
    simp only [checkSubset_eq_ok_iff inGround, exists_and_left, exists_eq, and_true]
  rw [verify, stop]
  rfl

/-! ## Numbers and tokens -/

/-- There is a token for each number below the size. -/
lemma exists_element? {g : GroundSet} {e : Nat} (h : e < g.size) : ∃ t, g.element? e = some t :=
  ⟨g.tokens[e], Array.getElem?_eq_getElem h⟩

/-- The tokens are those of the numbers below the size, in order. -/
lemma tokens_eq_filterMap (g : GroundSet) :
    g.tokens.toList = (List.range g.size).filterMap g.element? := by
  have each : ∀ e ∈ List.range g.size, g.element? e = some (g.tokens.toList.getD e "") := by
    intro e he
    rw [List.mem_range, GroundSet.size] at he
    simp [GroundSet.element?, he]
  rw [List.filterMap_eq_map_iff_forall_eq_some.mpr each]
  apply List.ext_getElem
  · simp [GroundSet.size]
  · intro n hn _
    simp at hn
    simp [hn]

/-- The number of a token leads back from the token. -/
lemma filterMap_indexOf?_element? {g : GroundSet} {es : List Nat} (known : ∀ e ∈ es, e < g.size) :
    (es.filterMap g.element?).filterMap g.indexOf? = es := by
  have back : ∀ e ∈ es, (g.element? e).bind g.indexOf? = some e := by
    intro e he
    obtain ⟨t, ht⟩ := exists_element? (known e he)
    rw [ht, Option.bind_some, GroundSet.indexOf?_eq_some_iff, ht]
  rw [List.filterMap_filterMap, List.filterMap_congr back, List.filterMap_some]

/-- Elements have the tokens of the ground set, in some order, if each element is there once. -/
lemma filterMap_element?_perm_iff {g : GroundSet} {es : List Nat} (known : ∀ e ∈ es, e < g.size) :
    (es.filterMap g.element?).Perm g.tokens.toList ↔ ∀ e < g.size, es.count e = 1 := by
  have numbers : (es.filterMap g.element?).Perm g.tokens.toList ↔ es.Perm (List.range g.size) := by
    rw [tokens_eq_filterMap]
    constructor
    · intro h
      have back := h.filterMap g.indexOf?
      rwa [filterMap_indexOf?_element? known,
        filterMap_indexOf?_element? fun e => List.mem_range.mp] at back
    · intro h
      exact h.filterMap g.element?
  rw [numbers, List.perm_iff_count]
  constructor
  · intro same e he
    rw [same, List.nodup_range.count, if_pos (List.mem_range.mpr he)]
  · intro once e
    rw [List.nodup_range.count]
    split
    · rename_i he
      exact once e (List.mem_range.mp he)
    · rename_i he
      exact List.count_eq_zero.mpr fun mem => he (List.mem_range.mpr (known e mem))

/-! ## Agreement -/

/-- The listed tokens are those of the selected elements, in another order. -/
lemma flatten_sortedTokensAt_perm (ps : List Nat) :
    (ps.map i.sortedTokensAt).flatten.Perm ((ps.flatMap i.elementsAt).filterMap i.ground.element?) := by
  rw [List.filterMap_flatMap, ← List.flatMap_def]
  exact List.Perm.flatMap_left ps fun p _ => List.mergeSort_perm _ _

/-- Selection fails exactly if a true variable lies beyond the family, and then verification fails
with the same error, which names the least such variable. When selection succeeds, verification
succeeds exactly if the listed tokens are those of the ground set, each of them once. -/
theorem selected_agrees_with_verify (i : Instance) (inGround : i.InGround) (m : Model) :
    ((∃ e, i.selected m = .error e) ↔ ∃ v, m.isTrue v = true ∧ i.subsetCount < v) ∧
    (∀ e, i.selected m = .error e → i.verify m = .error e ∧
      ∃ v, IsLeast {w | m.isTrue w = true ∧ i.subsetCount < w} v ∧
        e = .unknownVariable v i.subsetCount) ∧
    (∀ lists, i.selected m = .ok lists →
      (i.verify m = .ok () ↔ lists.flatten.Perm i.ground.tokens.toList)) := by
  refine ⟨?_, ?_, ?_⟩
  · constructor
    · rintro ⟨e, h⟩
      obtain ⟨v, ⟨beyond, _⟩, _⟩ := selected_eq_error_iff.mp h
      exact ⟨v, beyond⟩
    · rintro ⟨v, beyond⟩
      cases h : i.selected m with
      | error e => exact ⟨e, rfl⟩
      | ok lists =>
        obtain ⟨mem, outside⟩ := isTrue_and_lt_iff.mp beyond
        exact absurd ((selected_eq_ok_iff.mp h).1 v mem) outside
  · intro e h
    obtain ⟨v, least, rfl⟩ := selected_eq_error_iff.mp h
    exact ⟨verify_eq_error_of_isLeast inGround least, v, least, rfl⟩
  · intro lists h
    obtain ⟨known, rfl⟩ := selected_eq_ok_iff.mp h
    have elements : ∀ e ∈ m.trueVars.flatMap i.elementsAt, e < i.ground.size := by
      intro e he
      obtain ⟨p, _, he⟩ := List.mem_flatMap.mp he
      exact inGround.lt he
    rw [verify_eq_ok_iff inGround, and_iff_right known, ← filterMap_element?_perm_iff elements]
    exact ⟨(flatten_sortedTokensAt_perm _).trans, (flatten_sortedTokensAt_perm _).symm.trans⟩

/-- The first and the third of three subsets list each token once, in an order of their own, and of
two variables beyond the family the less one is reported. -/
theorem selected_agrees_with_verify_three_subsets :
    ∃ i : Instance, i.subsets = #[⟨[1]⟩, ⟨[0, 1]⟩, ⟨[0]⟩] ∧
      (∃ lists, i.selected ⟨[.ofVariable 3 true (by decide), .ofVariable 2 false (by decide),
          .ofVariable 1 true (by decide)]⟩ = .ok lists ∧ lists.flatten.Perm ["b", "a"]) ∧
      i.selected ⟨[.ofVariable 5 true (by decide), .ofVariable 4 true (by decide)]⟩ =
        .error (.unknownVariable 4 3) ∧
      i.verify ⟨[.ofVariable 5 true (by decide), .ofVariable 4 true (by decide)]⟩ =
        .error (.unknownVariable 4 3) := by
  obtain ⟨g, made⟩ := GroundSet.exists_ofDistinct_iff.mpr (show ["b", "a"].Nodup by decide)
  have size : g.size = 2 := GroundSet.size_of_ofDistinct made
  have tokens : g.tokens.toList = ["b", "a"] := GroundSet.tokens_of_ofDistinct made
  have inGround : InGround ⟨g, #[⟨[1]⟩, ⟨[0, 1]⟩, ⟨[0]⟩]⟩ := by
    simp [InGround, size]
  refine ⟨⟨g, #[⟨[1]⟩, ⟨[0, 1]⟩, ⟨[0]⟩]⟩, rfl, ?_, ?_⟩
  · obtain ⟨_, _, agree⟩ := selected_agrees_with_verify _ inGround
      ⟨[.ofVariable 3 true (by decide), .ofVariable 2 false (by decide),
        .ofVariable 1 true (by decide)]⟩
    have known : ∀ v ∈ [1, 3], v ∈ [1, 2, 3] := by decide
    have once : ∀ e < g.size, [1, 0].count e = 1 := by
      rw [size]
      decide
    rw [← tokens]
    exact ⟨_, selected_eq_ok_iff.mpr ⟨known, rfl⟩, (agree _ (selected_eq_ok_iff.mpr ⟨known, rfl⟩)).mp
      ((verify_eq_ok_iff inGround).mpr ⟨known, once⟩)⟩
  · obtain ⟨fails, same, _⟩ := selected_agrees_with_verify _ inGround
      ⟨[.ofVariable 5 true (by decide), .ofVariable 4 true (by decide)]⟩
    obtain ⟨e, h⟩ := fails.mpr ⟨5, rfl, show 3 < 5 by decide⟩
    obtain ⟨verified, v, least, rfl⟩ := same e h
    have four : v = 4 := Nat.le_antisymm (least.2 ⟨rfl, show 3 < 4 by decide⟩) least.1.2
    rw [four] at h verified
    exact ⟨h, verified⟩

end ExactCover.Instance
