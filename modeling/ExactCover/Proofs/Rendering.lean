import ExactCover.Generator.Printer
import ExactCover.Proofs.DimacsText
import ExactCover.Proofs.Offences
import Std.Data.String.ToInt

/-!
# Reading rendered families back

A generated family is written as an instance text whose tokens are the numerals of its elements,
counted from one (`instanceText_render`). Numerals are tokens and tell their numbers, so the text
reads back as the family if it has a ground set and its subsets name subsets of it
(`parse_render_of_admissible`); otherwise the first element that is out of place is reported.
-/

namespace ExactCover.Generator.Generated
open Brace Text Instance

/-! ## Numerals -/

/-- The numerals of some elements with single blanks between them. -/
def numerals (es : List Nat) : List Char :=
  (" ".intercalate (es.map name)).toList

/-- A digit is neither white space nor a brace. -/
lemma isTokenChar_of_isDigit {c : Char} (h : c.isDigit = true) : isTokenChar c = true := by
  have range : 0x30 ≤ c.toNat ∧ c.toNat ≤ 0x39 := by
    simp only [Char.isDigit, Bool.and_eq_true, decide_eq_true_eq] at h
    exact ⟨h.1, h.2⟩
  have printed : isWhiteSpace c = false := by
    simp only [isWhiteSpace, whiteSpaceRanges, List.any_cons, List.any_nil, Bool.or_false,
      Bool.or_eq_false_iff, Bool.and_eq_false_iff, decide_eq_false_iff_not]
    omega
  have noBrace : c ≠ '\x7b' ∧ c ≠ '\x7d' := by
    constructor
    · rintro rfl
      cases h
    · rintro rfl
      cases h
  simp [isTokenChar, printed, noBrace]

/-- A numeral is a token. -/
lemma isToken_name (e : Nat) : IsToken (name e).toList := by
  rw [name, Nat.toString_eq_repr, Nat.toList_repr]
  refine ⟨Nat.toDigits_ne_nil, fun c hc => isTokenChar_of_isDigit ?_⟩
  exact Nat.isDigit_of_mem_toDigits (by decide) (by decide) hc

/-- Numerals tell their numbers. -/
lemma name_injective : Function.Injective name :=
  fun _ _ h => Nat.succ_injective (Nat.repr_injective h)

/-- A blank parts the first numeral from the others. -/
lemma numerals_cons_cons (e f : Nat) (es : List Nat) :
    numerals (e :: f :: es) = (name e).toList ++ [' '] ++ numerals (f :: es) := by
  simp only [numerals, List.map_cons, String.intercalate_cons_cons, String.toList_append]
  rfl

/-- Numerals with blanks between them are a run of tokens. -/
lemma tokenRun_numerals (es : List Nat) :
    TokenRun ((es.map name).map String.toList) (numerals es) :=
  tokenRun_intercalate (List.forall_mem_map.mpr fun e _ => isToken_name e)

/-! ## Groups -/

/-- The group that is written for some elements. -/
def groupOf (es : List Nat) : Group :=
  ⟨' ' :: (numerals es ++ [' '])⟩

/-- A group that is written for some elements lists their numerals. -/
lemma innerText_groupOf (es : List Nat) :
    InnerText ((es.map name).map String.toList) (groupOf es).inner := by
  have := InnerText.mk isSpace_blank (tokenRun_numerals es) isSpace_blank
  rwa [List.append_assoc] at this

/-- A written group has no braces inside. -/
lemma isPlain_groupOf (es : List Nat) : (groupOf es).IsPlain :=
  (innerText_iff.mp (innerText_groupOf es)).1

/-- The tokens of a written group are the numerals of its elements. -/
lemma tokens_groupOf (es : List Nat) : (groupOf es).tokens = es.map name := by
  rw [Group.tokens, (innerText_iff.mp (innerText_groupOf es)).2, List.map_map,
    String.ofList_comp_toList, List.map_id]

/-- Without the blanks at its ends a written group is its numerals. -/
lemma trim_groupOf (es : List Nat) : trim (groupOf es).inner = numerals es := by
  have blank : ∀ c ∈ [' '], isWhiteSpace c = true := fun c hc =>
    isWhiteSpace_of_isSpacing (isSpace_blank c hc)
  have run := tokenRun_numerals es
  have trimmed := trim_append blank blank run.stops run.stops_reverse
  exact trimmed

/-! ## The text -/

/-- Numerals with a blank behind each are numerals with blanks between them and one at the end. -/
lemma toList_join_names {es : List Nat} (ne : es ≠ []) :
    (String.join (es.map fun e => name e ++ " ")).toList = numerals es ++ [' '] := by
  induction es with
  | nil => exact absurd rfl ne
  | cons e es ih =>
    rw [List.map_cons, String.join_cons, String.toList_append]
    cases es with
    | nil => simp [numerals]
    | cons f es =>
      rw [ih nofun, numerals_cons_cons]
      simp

/-- Numerals with a blank behind each list the elements too; without elements the blanks differ. -/
lemma innerText_join_names (es : List Nat) :
    InnerText ((es.map name).map String.toList)
      (' ' :: (String.join (es.map fun e => name e ++ " ")).toList) := by
  cases es with
  | nil =>
    exact InnerText.mk isSpace_blank .nil .nil
  | cons e es =>
    rw [toList_join_names (List.cons_ne_nil e es)]
    exact innerText_groupOf (e :: es)

/-- The first line of the text. -/
def groundText (n : Nat) : List Char :=
  '{' :: ' ' :: (String.join ((List.range n).map fun e => name e ++ " ")).toList ++ ['}']

/-- The lines that follow it. -/
def familyText (ss : List (List Nat)) : List Char :=
  '{' :: '\n' :: ss.flatMap (fun s => (subsetLine s).toList) ++ ['}', '\n']

/-- The text is the ground set, a line feed and the family. -/
lemma toList_render (g : Generated) :
    g.render.toList = groundText g.groundSize ++ '\n' :: familyText g.subsets := by
  simp only [render, groundLine, groundText, familyText, String.toList_append, String.toList_join,
    List.flatMap_map]
  simp

/-- The first line lists the numerals of all elements. -/
lemma singleText_groundText (n : Nat) :
    SingleText ((List.range n).map name) (groundText n) := by
  have := Single.mk .nil (GroupText.mk (innerText_join_names (List.range n))) .nil
  rwa [List.nil_append, List.append_nil] at this

/-- The ground set takes a single line. -/
lemma not_mem_groundText (n : Nat) : '\n' ∉ groundText n := by
  have fresh : ∀ e, '\n' ∉ (name e).toList := fun e feed =>
    (Formula.isWord_toString_nat (e + 1) _ feed).2 rfl
  simp [groundText, fresh]

/-- The line of a subset is its group, set off from the margin. -/
lemma toList_subsetLine (s : List Nat) :
    (subsetLine s).toList = "    ".toList ++ (groupOf s).text ++ ['\n'] := by
  have blank : "    \x7b " = "    " ++ "\x7b " := rfl
  simp only [subsetLine, blank, String.toList_append, Group.text, groupOf, numerals]
  simp

/-- The lines of the subsets are groups on lines of their own. -/
lemma readFamily_familyText (ss : List (List Nat)) :
    readFamily (familyText ss) = .ok (ss.map groupOf) := by
  have blanks : IsSpace "    ".toList := by
    simp [IsSpace, isSpacing]
  have plain : ∀ g ∈ ss.map groupOf, PlainText g g.text :=
    List.forall_mem_map.mpr fun s _ => ⟨isPlain_groupOf s, rfl⟩
  have family := Family.of_lines .nil isSpace_feed .nil isSpace_feed blanks plain
  apply readFamily_eq_ok_iff.mpr
  simpa [familyText, List.flatMap_map, toList_subsetLine] using family

/-- The first line of the text is the ground set. -/
lemma cutFirstLine_render (g : Generated) :
    cutFirstLine g.render.toList = (groundText g.groundSize, familyText g.subsets) := by
  rw [toList_render, cutFirstLine_append (not_mem_groundText _)]

/-- The text lists the numerals of the ground set and of each subset. -/
lemma instanceText_render (g : Generated) :
    InstanceText ((List.range g.groundSize).map name) (g.subsets.map (List.map name)) g.render := by
  rw [instanceText_iff, cutFirstLine_render]
  refine ⟨singleText_groundText _, familyText_iff.mpr ⟨_, readFamily_familyText _, ?_⟩⟩
  rw [List.map_map]
  exact List.map_congr_left fun s _ => tokens_groupOf s

/-! ## Reading it back -/

variable {n e : Nat} {s front : List Nat}

/-- The ground set has the numerals of the elements below its size. -/
lemma name_mem_iff : name e ∈ (List.range n).map name ↔ e < n := by
  rw [List.mem_map_of_injective name_injective, List.mem_range]

/-- Numbers that name a subset of the ground set have numerals that do. -/
lemma admissible_names (h : Admissible (· < n) s) :
    Admissible (· ∈ (List.range n).map name) (s.map name) := by
  refine ⟨h.1.map name_injective, ?_⟩
  rw [List.forall_mem_map]
  exact fun e he => name_mem_iff.mpr (h.2 e he)

/-- No numeral comes twice in the ground set. -/
lemma nodup_names (n : Nat) : ((List.range n).map name).Nodup :=
  List.nodup_range.map name_injective

/-- The ground set of a positive size is not empty. -/
lemma names_ne_nil (pos : 0 < n) : (List.range n).map name ≠ [] := by
  simp only [ne_eq, List.map_eq_nil_iff, List.range_eq_nil]
  omega

/-- Subsets with elements of the ground set, none of them twice, have a meaning. -/
lemma meaningful_names {ss : List (List Nat)} (pos : 0 < n)
    (fine : ∀ s ∈ ss, Admissible (· < n) s) :
    Meaningful ((List.range n).map name) (ss.map (List.map name)) where
  nonempty := names_ne_nil pos
  distinct := nodup_names n
  distinct_of_mem := List.forall_mem_map.mpr fun s hs => (admissible_names (fine s hs)).1
  known_of_mem := List.forall_mem_map.mpr fun s hs => (admissible_names (fine s hs)).2

/-- The numeral of an element has the number of the element. -/
lemma idxOf_name (h : e < n) : ((List.range n).map name).idxOf (name e) = e := by
  have := (nodup_names n).idxOf_getElem e (by simpa using h)
  simpa using this

/-- Numerals of known elements are read as the elements. -/
lemma subsetOf_names (known : ∀ e ∈ s, e < n) :
    subsetOf ((List.range n).map name) (s.map name) = ⟨s⟩ := by
  have back : ∀ e ∈ s, (((List.range n).map name).idxOf ∘ name) e = id e :=
    fun e he => idxOf_name (known e he)
  rw [subsetOf, List.map_map, List.map_congr_left back, List.map_id]

/-- A family of subsets of its ground set is read back. -/
lemma parse_render_of_admissible {g : Generated} (pos : 0 < g.groundSize)
    (fine : ∀ s ∈ g.subsets, Admissible (· < g.groundSize) s) :
    ∃ i, Instance.parse g.render = .ok i ∧
      i.ground.tokens.toList = (List.range' 1 g.groundSize).map toString ∧
      i.subsets.toList = g.subsets.map Subset.mk := by
  have form := instanceText_render g
  obtain ⟨i, h⟩ := exists_parse_eq_ok form (meaningful_names pos fine)
  obtain ⟨_, made, subsets⟩ := contents_of_parse form h
  refine ⟨i, h, ?_, ?_⟩
  · rw [GroundSet.tokens_of_ofDistinct made, List.range'_eq_map_range, List.map_map]
    exact List.map_congr_left fun e _ => congrArg toString (Nat.add_comm e 1)
  · rw [subsets, List.toList_toArray, List.map_map]
    exact List.map_congr_left fun s hs => subsetOf_names (fine s hs).2

/-- Otherwise the first element out of place stops the reading. -/
lemma parse_render_of_firstOffence {g : Generated} (pos : 0 < g.groundSize)
    (offence : FirstOffence (· < g.groundSize) g.subsets s front e) :
    (e ∈ front → Instance.parse g.render =
      .error (.duplicateSubsetElement (name e) (" ".intercalate (s.map name)))) ∧
    (g.groundSize ≤ e → Instance.parse g.render = .error (.unknownElement (name e))) := by
  obtain ⟨ground, made⟩ := GroundSet.exists_ofDistinct_iff.mpr (nodup_names g.groundSize)
  have tokens := GroundSet.tokens_of_ofDistinct made
  have first : readGround (cutFirstLine g.render.toList).1 = .ok ground := by
    rw [cutFirstLine_render]
    exact readGround_eq_ok_iff.mpr ⟨_, singleText_groundText _, names_ne_nil pos, made⟩
  have read : readFamily (cutFirstLine g.render.toList).2 = .ok (g.subsets.map groupOf) := by
    rw [cutFirstLine_render]
    exact readFamily_familyText _
  cases offence with
  | @mk before _ after _ _ rest subsets all split front_fine out =>
    have group : (groupOf s).tokens = front.map name ++ name e :: rest.map name := by
      rw [tokens_groupOf, split, List.map_append, List.map_cons]
    have group_fine : Admissible (· ∈ ground.tokens.toList) (front.map name) := by
      rw [tokens]
      exact admissible_names front_fine
    obtain ⟨repeated, unknown⟩ := readSubset_eq_error group group_fine
    rw [trim_groupOf, numerals, String.ofList_toList] at repeated
    -- the groups before that of `s` are read
    have fine : ∀ g ∈ before.map groupOf, Admissible (· ∈ ground.tokens.toList) g.tokens := by
      rw [List.forall_mem_map, tokens]
      intro l hl
      rw [tokens_groupOf]
      exact admissible_names (all l hl)
    rw [subsets, List.map_append, List.map_cons] at read
    constructor
    · intro h
      apply parse_eq_error_of_readSubsets first
      exact readSubsets_eq_error read fine (repeated (List.mem_map_of_mem h))
    · intro h
      apply parse_eq_error_of_readSubsets first
      apply readSubsets_eq_error read fine
      apply unknown
      rw [tokens, name_mem_iff]
      omega

/-- What becomes of a family that is written and read. With a ground set and lists that name subsets
of it, it comes back. Without a ground set this is the error, and otherwise the first element out of
place is: it is repeated or unknown. -/
theorem parse_render_cases (g : Generated) :
    (0 < g.groundSize → (∀ s ∈ g.subsets, Admissible (· < g.groundSize) s) →
      ∃ i, Instance.parse g.render = .ok i ∧
        i.ground.tokens.toList = (List.range' 1 g.groundSize).map toString ∧
        i.subsets.toList = g.subsets.map Subset.mk) ∧
    (g.groundSize = 0 → Instance.parse g.render = .error .emptyGroundSet) ∧
    (0 < g.groundSize → (¬∀ s ∈ g.subsets, Admissible (· < g.groundSize) s) →
      (∃ s front e, FirstOffence (· < g.groundSize) g.subsets s front e) ∧
      ∀ s front e, FirstOffence (· < g.groundSize) g.subsets s front e →
        (e ∈ front ∧ Instance.parse g.render = .error (.duplicateSubsetElement (toString (e + 1))
          (" ".intercalate (s.map fun e => toString (e + 1))))) ∨
        (g.groundSize ≤ e ∧
          Instance.parse g.render = .error (.unknownElement (toString (e + 1))))) := by
  refine ⟨parse_render_of_admissible, ?_, ?_⟩
  · intro zero
    apply parse_eq_emptyGroundSet
    rw [cutFirstLine_render, zero]
    exact singleText_groundText 0
  · intro pos h
    refine ⟨exists_firstOffence h, fun s front e offence => ?_⟩
    obtain ⟨repeated, unknown⟩ := parse_render_of_firstOffence pos offence
    cases offence with
    | mk _ _ _ _ out =>
      cases out with
      | inl again => exact .inl ⟨again, repeated again⟩
      | inr beyond => exact .inr ⟨Nat.le_of_not_lt beyond, unknown (Nat.le_of_not_lt beyond)⟩

/-- The third family has an unknown element behind the repeated one, and the fourth a repeated one
behind the unknown one. -/
theorem parse_render_cases_four_families :
    (∃ i, Instance.parse (Generated.mk 2 [[1, 0], []]).render = .ok i ∧
      i.ground.tokens.toList = ["1", "2"] ∧ i.subsets.toList = [⟨[1, 0]⟩, ⟨[]⟩]) ∧
    Instance.parse (Generated.mk 0 [[0]]).render = .error .emptyGroundSet ∧
    Instance.parse (Generated.mk 3 [[0], [2, 1, 2, 7]]).render =
      .error (.duplicateSubsetElement "3" "3 2 3 8") ∧
    Instance.parse (Generated.mk 2 [[1], [0, 2], [0, 0]]).render =
      .error (.unknownElement "3") := by
  refine ⟨?_, ?_, ?_, ?_⟩
  · exact (parse_render_cases ⟨2, [[1, 0], []]⟩).1 (by decide) (by decide)
  · exact (parse_render_cases ⟨0, [[0]]⟩).2.1 rfl
  · obtain ⟨_, first⟩ := (parse_render_cases ⟨3, [[0], [2, 1, 2, 7]]⟩).2.2 (by decide) (by decide)
    have offence : FirstOffence (· < 3) [[0], [2, 1, 2, 7]] [2, 1, 2, 7] [2, 1] 2 :=
      .mk (show _ = [[0]] ++ [2, 1, 2, 7] :: [] from rfl) (by decide) rfl (by decide) (by decide)
    cases first _ _ _ offence with
    | inl repeated => exact repeated.2
    | inr unknown => exact absurd unknown.1 (by decide)
  · obtain ⟨_, first⟩ := (parse_render_cases ⟨2, [[1], [0, 2], [0, 0]]⟩).2.2 (by decide) (by decide)
    have offence : FirstOffence (· < 2) [[1], [0, 2], [0, 0]] [0, 2] [0] 2 :=
      .mk (show _ = [[1]] ++ [0, 2] :: [[0, 0]] from rfl) (by decide) rfl (by decide) (by decide)
    cases first _ _ _ offence with
    | inl repeated => exact absurd repeated.1 (by decide)
    | inr unknown => exact unknown.2

end ExactCover.Generator.Generated
