import ExactCover.Proofs.Breaks
import ExactCover.Proofs.Diagnosis

/-!
# The place that an error points at

A text without the form of an instance is refused with a quotation: the first line, trimmed, that is
not blank behind the place where reading broke off (`Excerpt`, `excerpt_eq`). The place is a break of
the first line or of the family (`exists_singleBreak`, `exists_familyBreak`).
-/

namespace ExactCover.Text

/-! ## Quotations -/

/-- The text is white space. -/
def IsBlank (cs : List Char) : Prop :=
  ∀ c ∈ cs, isWhiteSpace c = true

/-- A text that neither begins nor ends with white space. -/
structure IsTrimmed (cs : List Char) : Prop where
  stops : Stops isWhiteSpace cs
  stops_reverse : Stops isWhiteSpace cs.reverse

/-- What is quoted of a text: its first line that is not blank, without the white space around it,
or else a remark that the text is over. -/
inductive Excerpt : List Char → String → Prop where
  | line {cs before ws t ws' after} :
    lines cs = before ++ (ws ++ t ++ ws') :: after →
    (∀ l ∈ before, IsBlank l) →
    IsBlank ws → IsBlank ws' →
    t ≠ [] → IsTrimmed t →
    Excerpt cs (String.ofList t)
  | nothing {cs} :
    (∀ l ∈ lines cs, IsBlank l) →
    Excerpt cs "end of input"

/-- Trimming takes white space away at both ends, and all of it. -/
lemma exists_eq_trim (cs : List Char) :
    IsTrimmed (trim cs) ∧ ∃ ws ws', IsBlank ws ∧ IsBlank ws' ∧ cs = ws ++ trim cs ++ ws' := by
  have front : IsBlank (cs.takeWhile isWhiteSpace) := fun c hc => List.mem_takeWhile_imp hc
  have stop := stops_dropWhile isWhiteSpace cs
  have whole := List.takeWhile_append_dropWhile (p := isWhiteSpace) (l := cs)
  rw [trim]
  generalize cs.dropWhile isWhiteSpace = rest at stop whole ⊢
  have back : IsBlank (rest.reverse.takeWhile isWhiteSpace).reverse := fun c hc =>
    List.mem_takeWhile_imp (List.mem_reverse.mp hc)
  have split : rest = trimEnd rest ++ (rest.reverse.takeWhile isWhiteSpace).reverse := by
    rw [trimEnd, ← List.reverse_append, List.takeWhile_append_dropWhile, List.reverse_reverse]
  refine ⟨⟨?_, ?_⟩, _, _, front, back, ?_⟩
  · intro c hc
    rw [split] at stop
    exact stop c (List.mem_head?_append_of_mem_head? hc)
  · rw [trimEnd, List.reverse_reverse]
    exact stops_dropWhile isWhiteSpace rest.reverse
  · rw [List.append_assoc, ← split, whole]

/-- Nothing is left of a text exactly if it is blank. -/
lemma trim_eq_nil_iff {cs : List Char} : trim cs = [] ↔ IsBlank cs := by
  constructor
  · intro h
    obtain ⟨_, ws, ws', blank, blank', whole⟩ := exists_eq_trim cs
    rw [h, List.append_nil] at whole
    rw [whole]
    exact List.forall_mem_append.mpr ⟨blank, blank'⟩
  · intro blank
    rw [trim, List.dropWhile_eq_nil_iff.mpr blank]
    rfl

/-- The quotation of a text is its first line that is not blank. -/
lemma excerpt_eq (cs : List Char) : Excerpt cs (excerpt cs) := by
  unfold excerpt
  split
  case h_1 line found =>
    rw [firstWrittenLine?, List.find?_eq_some_iff_append] at found
    obtain ⟨written, before, after, split, blank⟩ := found
    obtain ⟨before, behind, lines_eq, rfl, behind_eq⟩ := List.map_eq_append_iff.mp split
    obtain ⟨l, after, rfl, rfl, _⟩ := List.map_eq_cons_iff.mp behind_eq
    obtain ⟨trimmed, ws, ws', front, back, whole⟩ := exists_eq_trim l
    rw [List.forall_mem_map] at blank
    have blank_before : ∀ m ∈ before, IsBlank m := by
      intro m hm
      have empty := blank m hm
      rw [← trim_eq_nil_iff]
      simpa using empty
    rw [whole] at lines_eq
    exact .line lines_eq blank_before front back (by simpa using written) trimmed
  case h_2 none =>
    rw [firstWrittenLine?, List.find?_eq_none, List.forall_mem_map] at none
    refine .nothing fun l hl => ?_
    have empty := none l hl
    rw [← trim_eq_nil_iff]
    simpa using empty

/-- A quotation is not empty, and there is no white space around it. -/
lemma Excerpt.written {cs : List Char} {near : String} (h : Excerpt cs near) :
    near ≠ "" ∧ IsTrimmed near.toList := by
  cases h with
  | line _ _ _ _ ne trimmed =>
    rw [String.toList_ofList]
    exact ⟨fun e => ne (String.ofList_eq_empty_iff.mp e), trimmed⟩
  | nothing _ =>
    refine ⟨by decide, ?_, ?_⟩
    · intro c hc
      cases hc
      decide
    · intro c hc
      cases hc
      decide

end ExactCover.Text

namespace ExactCover.Instance
open Brace Text

section Quoting

variable {text : String} {line rest : List Char} {near : String}

/-- A quotation for the ground set is one of the place where reading the line broke off. -/
lemma exists_singleBreak (cut : FirstLine text.toList line rest)
    (h : parse text = .error (.malformedGroundSet near)) :
    ∃ front stuck, line = front ++ stuck ∧ Excerpt stuck near ∧ SingleBreak front stuck := by
  have bad := (parse_eq_malformedGroundSet_iff cut).mp ⟨near, h⟩
  cases read : readSingle line with
  | ok g => exact absurd ⟨_, singleText_iff.mpr ⟨g, read, rfl⟩⟩ bad
  | error stuck =>
    rw [parse_of_readSingle cut read] at h
    cases h
    obtain ⟨front, split, broken⟩ := readSingle_eq_error_iff.mp read
    exact ⟨front, stuck, split, excerpt_eq stuck, broken⟩

/-- A quotation for the family is one of the place where reading the family broke off. -/
lemma exists_familyBreak (cut : FirstLine text.toList line rest)
    (h : parse text = .error (.malformedFamily near)) :
    ∃ front stuck, rest = front ++ stuck ∧ Excerpt stuck near ∧ FamilyBreak front stuck := by
  cases diagnosis_of_parse cut h with
  | malformedFamily ground bad =>
    cases read : readFamily rest with
    | ok gs => exact absurd ⟨_, familyBracedText_iff.mpr ⟨gs, read, rfl⟩⟩ bad
    | error stuck =>
      rw [parse_of_readFamily cut ground read] at h
      cases h
      obtain ⟨front, split, broken⟩ := readFamily_eq_error_iff.mp read
      exact ⟨front, stuck, split, excerpt_eq stuck, broken⟩

end Quoting

/-- The place that a syntax error points at. The first line is quoted from behind the longest text
that can be completed to a line with one group. What follows the first line is quoted from the only
place where reading a family can break off: at the first character if it opens no family, behind a
family that the text goes on after, or else behind the longest run of groups, where neither a whole
group nor the closing brace stands; the text in front of the place can be completed. A quotation is
never empty and has no white space around it. All this is the same if the tokens of a group are read
one after another. -/
theorem parse_locates_syntax_errors {text : String} {line rest : List Char}
    (cut : FirstLine text.toList line rest) :
    (∀ near, parse text = .error (.malformedGroundSet near) →
      ∃ front stuck, line = front ++ stuck ∧ Excerpt stuck near ∧ BeginsSingle front ∧
        ∀ front' more ts, front' <+: line → SingleText ts (front' ++ more) → front' <+: front) ∧
    (∀ near, parse text = .error (.malformedFamily near) →
      ∃ front stuck, rest = front ++ stuck ∧ Excerpt stuck near ∧ BeginsFamily front ∧
        FamilyBreak front stuck ∧
        ∀ front' stuck', rest = front' ++ stuck' → FamilyBreak front' stuck' → stuck' = stuck) ∧
    (∀ near, parse text = .error (.malformedGroundSet near) ∨
        parse text = .error (.malformedFamily near) → near ≠ "" ∧ IsTrimmed near.toList) ∧
    ∀ cs, readGroupByTokens cs = (readGroup cs).map fun (g, behind) => (g.tokens, behind) := by
  refine ⟨?_, ?_, ?_, readGroupByTokens_eq⟩
  · intro near h
    obtain ⟨front, stuck, split, quoted, broken⟩ := exists_singleBreak cut h
    refine ⟨front, stuck, split, quoted, broken.beginsSingle, ?_⟩
    intro front' more ts begins text
    rw [split] at begins
    exact broken.longest begins text
  · intro near h
    obtain ⟨front, stuck, split, quoted, broken⟩ := exists_familyBreak cut h
    refine ⟨front, stuck, split, quoted, broken.beginsFamily, broken, ?_⟩
    intro front' stuck' split' other
    have read := readFamily_eq_error_iff.mpr ⟨front, split, broken⟩
    rw [readFamily_eq_error_iff.mpr ⟨front', split', other⟩] at read
    exact Except.error.inj read
  · rintro near (h | h)
    · obtain ⟨_, _, _, quoted, _⟩ := exists_singleBreak cut h
      exact quoted.written
    · obtain ⟨_, _, _, quoted, _⟩ := exists_familyBreak cut h
      exact quoted.written

/-- A line with a brace inside its group, a group that fails in its middle, and text behind a family
that begins with a no-break space. -/
theorem parse_locates_syntax_errors_three_texts :
    (∃ front stuck, "\x7b a \x7bb \x7d \x7d".toList = front ++ stuck ∧
      Excerpt stuck "\x7bb \x7d \x7d" ∧ BeginsSingle front ∧
      ∀ front' more ts, front' <+: "\x7b a \x7bb \x7d \x7d".toList →
        SingleText ts (front' ++ more) → front' <+: front) ∧
    (∃ front stuck, "\x7b \x7ba\x7d\n \x7ba \x7bb\x7d c\x7d\n\x7d".toList = front ++ stuck ∧
      Excerpt stuck "\x7ba \x7bb\x7d c\x7d" ∧ FamilyBreak front stuck) ∧
    ∃ front stuck, "\x7b\x7d\n\u00a0\n stray".toList = front ++ stuck ∧
      Excerpt stuck "stray" ∧ FamilyBreak front stuck := by
  have ground : GroundText ["a"] "\x7ba\x7d".toList :=
    ⟨singleText_iff.mpr (Traversal.map_eq_ok_iff.mp (by decide +kernel)), by decide, by decide⟩
  refine ⟨?_, ?_, ?_⟩
  · have cut := firstLine_cutFirstLine "\x7b a \x7bb \x7d \x7d\n\x7b\x7d".toList
    have read : readSingle "\x7b a \x7bb \x7d \x7d".toList = .error "\x7bb \x7d \x7d".toList := by
      decide +kernel
    exact (parse_locates_syntax_errors cut).1 _ (parse_of_readSingle cut read)
  · have cut := firstLine_cutFirstLine
      "\x7ba\x7d\n\x7b \x7ba\x7d\n \x7ba \x7bb\x7d c\x7d\n\x7d".toList
    have read : readFamily "\x7b \x7ba\x7d\n \x7ba \x7bb\x7d c\x7d\n\x7d".toList =
        .error "\x7ba \x7bb\x7d c\x7d\n\x7d".toList := by
      decide +kernel
    obtain ⟨front, stuck, split, quoted, _, broken, _⟩ :=
      (parse_locates_syntax_errors cut).2.1 _ (parse_of_readFamily cut ground read)
    exact ⟨front, stuck, split, quoted, broken⟩
  · have cut := firstLine_cutFirstLine "\x7ba\x7d\n\x7b\x7d\n\u00a0\n stray".toList
    have read : readFamily "\x7b\x7d\n\u00a0\n stray".toList = .error "\u00a0\n stray".toList := by
      decide +kernel
    obtain ⟨front, stuck, split, quoted, _, broken, _⟩ :=
      (parse_locates_syntax_errors cut).2.1 _ (parse_of_readFamily cut ground read)
    exact ⟨front, stuck, split, quoted, broken⟩

end ExactCover.Instance
