import ExactCover.Proofs.Offences

/-!
# The fault that is reported

A text can have several faults at once, and parsing reports one of them. `Diagnosis` lists the ways
in which reading can end, each with what it says about the first line and the text behind it, and
`diagnosis_parse` finds parsing among them.

The faults rank by stage: the form of the first line, its tokens, the form of the family, and last
the tokens of the groups. In the two stages that look at tokens, the first one out of place in
reading order is named. In a group such a token repeats an earlier one or is unknown, and the first
of them cannot be both, because every token in front of it is known (`FirstMisplaced.not_both`).
-/

namespace ExactCover.Brace
open Text

/-! ## One reading of a text -/

/-- Without what stands between the braces a family is read as its lists of tokens. -/
lemma familyText_of_bracedText {bs : List (List String × List Char)} {cs : List Char}
    (h : Family BracedText bs cs) : FamilyText (bs.map Prod.fst) cs := by
  obtain ⟨gs, read, rfl⟩ := familyBracedText_iff.mp h
  rw [List.map_map]
  exact familyText_iff.mpr ⟨gs, read, rfl⟩

/-- A line lists one list of tokens. -/
lemma SingleText.unique {ts ts' : List String} {cs : List Char} (h : SingleText ts cs)
    (h' : SingleText ts' cs) : ts = ts' := by
  rw [singleText_iff, ← Traversal.map_eq_ok_iff] at h h'
  exact Except.ok.inj (h.symm.trans h')

/-- A family lists one list for each of its groups. -/
lemma FamilyText.unique {tss tss' : List (List String)} {cs : List Char} (h : FamilyText tss cs)
    (h' : FamilyText tss' cs) : tss = tss' := by
  rw [familyText_iff, ← Traversal.map_eq_ok_iff] at h h'
  exact Except.ok.inj (h.symm.trans h')

/-- A family is read in one way, also in what stands between the braces. -/
lemma familyBracedText_unique {bs bs' : List (List String × List Char)} {cs : List Char}
    (h : Family BracedText bs cs) (h' : Family BracedText bs' cs) : bs = bs' := by
  rw [familyBracedText_iff, ← Traversal.map_eq_ok_iff] at h h'
  exact Except.ok.inj (h.symm.trans h')

end ExactCover.Brace

namespace ExactCover

/-! ## The first repetition -/

/-- In reading order, `a` is the first entry of the list that repeats an earlier one. -/
inductive FirstRepeat {α : Type} : List α → α → Prop where
  | mk {front a rest} :
    front.Nodup →
    a ∈ front →
    FirstRepeat (front ++ a :: rest) a

variable {α : Type} {P : α → Prop} {list : List α}

/-- The entries of an admissible list are new where they stand, and they have the property. -/
lemma admissible_iff :
    Admissible P list ↔ ∀ front a rest, list = front ++ a :: rest → a ∉ front ∧ P a := by
  constructor
  · rintro ⟨distinct, all⟩ front a rest rfl
    refine ⟨fun repeated => ?_, all a (List.mem_append_right front List.mem_cons_self)⟩
    exact (List.nodup_append.mp distinct).2.2 a repeated a List.mem_cons_self rfl
  · intro fine
    by_contra bad
    obtain ⟨front, a, rest, split, _, out⟩ := exists_offence bad
    obtain ⟨fresh, holds⟩ := fine front a rest split
    exact out.elim fresh fun lacks => lacks holds

/-- There is a first repetition exactly if there is one at all. -/
lemma exists_firstRepeat_iff : (∃ a, FirstRepeat list a) ↔ ¬list.Nodup := by
  constructor
  · rintro ⟨_, ⟨_, repeated⟩⟩ distinct
    exact (List.nodup_append.mp distinct).2.2 _ repeated _ List.mem_cons_self rfl
  · intro repeats
    have bad : ¬Admissible (fun _ => True) list := fun h => repeats h.1
    obtain ⟨front, a, rest, rfl, fine, out⟩ := exists_offence bad
    exact ⟨a, .mk fine.1 (out.resolve_right (not_not.mpr trivial))⟩

/-- The first repeated token is the one that a growing ground set refuses. -/
lemma GroundSet.ofDistinct_of_firstRepeat {ts : List String} {t : String} (h : FirstRepeat ts t) :
    ofDistinct ts = .error t := by
  obtain ⟨distinct, repeated⟩ := h
  obtain ⟨ground, made⟩ := exists_ofDistinct_iff.mpr distinct
  have refused : ground.insertNew t = .error t := by
    rw [← tokens_of_ofDistinct made, ← insert?_eq_none_iff] at repeated
    rw [insertNew, repeated]
  rw [ofDistinct_eq_foldlM] at made ⊢
  rw [List.foldlM_append, made]
  change List.foldlM insertNew ground _ = _
  rw [List.foldlM_cons, refused]
  rfl

end ExactCover

namespace ExactCover.Instance
open Brace Text

/-! ## The two parts of a text -/

/-- The text up to the first line feed, and the text behind it. Without a line feed there is nothing
behind the first line. -/
inductive FirstLine : List Char → List Char → List Char → Prop where
  | feed {line rest} :
    '\n' ∉ line →
    FirstLine (line ++ '\n' :: rest) line rest
  | whole {line} :
    '\n' ∉ line →
    FirstLine line line []

/-- Cutting off the first line gives the two parts. -/
lemma FirstLine.cutFirstLine_eq {cs line rest : List Char} (h : FirstLine cs line rest) :
    cutFirstLine cs = (line, rest) := by
  cases h with
  | feed fresh => exact cutFirstLine_append fresh rest
  | whole fresh =>
    have all : (cutFirstLine cs).1 = cs := List.takeWhile_eq_self_iff.mpr (forall_bne_feed fresh)
    exact Prod.ext all (cutFirstLine_of_not_mem fresh)

/-- Every text has a first line and something or nothing behind it. -/
lemma firstLine_cutFirstLine (cs : List Char) :
    FirstLine cs (cutFirstLine cs).1 (cutFirstLine cs).2 := by
  by_cases h : '\n' ∈ cs
  · obtain ⟨line, rest, rfl, fresh⟩ := List.eq_append_cons_of_mem h
    rw [cutFirstLine_append fresh]
    exact .feed fresh
  · have whole : FirstLine cs cs [] := .whole h
    rw [whole.cutFirstLine_eq]
    exact whole

/-! ## The first token out of place in a family -/

/-- A token behind `front` in a group is out of place: it is there already, or the ground set does
not have it. -/
def Misplaced (ts front : List String) (t : String) : Prop :=
  t ∈ front ∨ t ∉ ts

instance (ts front : List String) (t : String) : Decidable (Misplaced ts front t) :=
  inferInstanceAs (Decidable (t ∈ front ∨ t ∉ ts))

/-- In reading order, `t` is the first token of the groups that is out of place. It stands behind
`front` in the group with `inner` between its braces. -/
inductive FirstMisplaced (ts : List String) :
    List (List String × List Char) → List String → String → List Char → Prop where
  | mk {before front t later inner after} :
    (∀ b ∈ before, Admissible (· ∈ ts) b.1) →
    Admissible (· ∈ ts) front →
    Misplaced ts front t →
    FirstMisplaced ts (before ++ (front ++ t :: later, inner) :: after) front t inner

section Misplaced

variable {ts front : List String} {bs : List (List String × List Char)} {t : String}
  {inner : List Char}

/-- The first token out of place is out of place. -/
lemma FirstMisplaced.misplaced (h : FirstMisplaced ts bs front t inner) :
    Misplaced ts front t := by
  obtain ⟨_, _, out⟩ := h
  exact out

/-- What a token repeats was known, so the first token out of place is not unknown as well. -/
lemma FirstMisplaced.not_both (h : FirstMisplaced ts bs front t inner) : ¬(t ∈ front ∧ t ∉ ts) := by
  obtain ⟨_, fine, _⟩ := h
  rintro ⟨repeated, unknown⟩
  exact unknown (fine.2 t repeated)

/-- The groups are admissible exactly if none of their tokens is out of place. -/
lemma forall_admissible_iff : (∀ b ∈ bs, Admissible (· ∈ ts) b.1) ↔
    ¬∃ front t later inner, (front ++ t :: later, inner) ∈ bs ∧ Misplaced ts front t := by
  constructor
  · rintro fine ⟨front, t, later, inner, hb, out⟩
    obtain ⟨fresh, known⟩ := admissible_iff.mp (fine _ hb) front t later rfl
    exact out.elim fresh fun unknown => unknown known
  · rintro none ⟨us, inner⟩ hb
    refine admissible_iff.mpr ?_
    rintro front t later rfl
    constructor
    · exact fun repeated => none ⟨front, t, later, inner, hb, .inl repeated⟩
    · exact not_not.mp fun unknown => none ⟨front, t, later, inner, hb, .inr unknown⟩

/-- If a group is not admissible, some token is the first one out of place. -/
lemma exists_firstMisplaced (h : ¬∀ b ∈ bs, Admissible (· ∈ ts) b.1) :
    ∃ front t inner, FirstMisplaced ts bs front t inner := by
  obtain ⟨before, ⟨us, inner⟩, after, rfl, fine, bad⟩ := Traversal.exists_first h
  obtain ⟨front, t, later, rfl, front_fine, out⟩ := exists_offence bad
  exact ⟨front, t, inner, .mk fine front_fine out⟩

end Misplaced

/-! ## The order of the two tests of a token -/

/-- The numbers of the tokens of a group, where each token is tested for a repetition before it is
looked up. -/
def readElementsByToken (ground : GroundSet) (group : Group) :
    (seen : List String) → List String → Except FormatError (List Nat)
  | _, [] => .ok []
  | seen, t :: ts =>
    if t ∈ seen then
      .error (.duplicateSubsetElement t (String.ofList (trim group.inner)))
    else
      match ground.indexOf? t with
      | none => .error (.unknownElement t)
      | some e => (readElementsByToken ground group (t :: seen) ts).map (e :: ·)

/-- The order of the tests does not matter. A token that fails both would be unknown and yet stand
among those seen, which are all known. -/
lemma readElements_eq_byToken {ground : GroundSet} {group : Group} {seen us : List String}
    (known : ∀ t ∈ seen, t ∈ ground.tokens.toList) :
    readElements ground group (seen.map ground.tokens.toList.idxOf) us =
      (readElementsByToken ground group seen us).map
        ((seen.map ground.tokens.toList.idxOf).reverse ++ ·) := by
  induction us generalizing seen with
  | nil =>
    rw [readElements, readElementsByToken, Except.map, List.append_nil]
  | cons t us ih =>
    rw [readElements, readElementsByToken]
    by_cases there : t ∈ ground.tokens.toList
    · have same : ground.tokens.toList.idxOf t ∈ seen.map ground.tokens.toList.idxOf ↔
          t ∈ seen := by
        refine ⟨fun h => ?_, List.mem_map_of_mem⟩
        obtain ⟨u, hu, e⟩ := List.mem_map.mp h
        rwa [← (List.idxOf_inj (known u hu)).mp e]
      rw [GroundSet.indexOf?_of_mem there]
      dsimp only
      simp only [same]
      split
      · rfl
      · have later := ih (List.forall_mem_cons.mpr ⟨there, known⟩)
        rw [List.map_cons] at later
        rw [later]
        cases readElementsByToken ground group (t :: seen) us with
        | error err => rfl
        | ok es => simp [Except.map]
    · have fresh : t ∉ seen := fun repeated => there (known t repeated)
      rw [GroundSet.indexOf?_eq_none_iff.mpr there, if_neg fresh]
      rfl

/-- A subset is read alike in both orders of the tests. -/
lemma readSubset_eq_byToken (ground : GroundSet) (group : Group) :
    readSubset ground group =
      (readElementsByToken ground group [] group.tokens).map Subset.mk := by
  have known : ∀ t ∈ ([] : List String), t ∈ ground.tokens.toList := nofun
  have elements : readElements ground group [] group.tokens =
      (readElementsByToken ground group [] group.tokens).map ([] ++ ·) :=
    readElements_eq_byToken known
  rw [readSubset, elements]
  cases readElementsByToken ground group [] group.tokens with
  | error err => rfl
  | ok es => rfl

/-! ## The ways reading ends -/

/-- The line is one group of tokens, at least one and no two of them alike. -/
structure GroundText (ts : List String) (line : List Char) : Prop where
  single : SingleText ts line
  distinct : ts.Nodup
  nonempty : ts ≠ []

/-- How reading ends, in terms of the first line and the text behind it. Of the place near which the
text leaves the grammar nothing is said. -/
inductive Diagnosis (line rest : List Char) : Except FormatError Instance → Prop where
  | malformedGroundSet {near} :
    (¬∃ ts, SingleText ts line) →
    Diagnosis line rest (.error (.malformedGroundSet near))
  | duplicateGroundElement {ts t} :
    SingleText ts line →
    FirstRepeat ts t →
    Diagnosis line rest (.error (.duplicateGroundElement t))
  | emptyGroundSet :
    SingleText [] line →
    Diagnosis line rest (.error .emptyGroundSet)
  | malformedFamily {ts near} :
    GroundText ts line →
    (¬∃ bs, Family BracedText bs rest) →
    Diagnosis line rest (.error (.malformedFamily near))
  | duplicateSubsetElement {ts bs front t inner} :
    GroundText ts line →
    Family BracedText bs rest →
    FirstMisplaced ts bs front t inner →
    t ∈ front →
    Diagnosis line rest (.error (.duplicateSubsetElement t (String.ofList (trim inner))))
  | unknownElement {ts bs front t inner} :
    GroundText ts line →
    Family BracedText bs rest →
    FirstMisplaced ts bs front t inner →
    t ∉ ts →
    Diagnosis line rest (.error (.unknownElement t))
  | accepted {ts bs i} :
    GroundText ts line →
    Family BracedText bs rest →
    (∀ b ∈ bs, Admissible (· ∈ ts) b.1) →
    Diagnosis line rest (.ok i)

section Stages

variable {text : String} {line rest : List Char} {ts : List String}

/-- A good first line is read as the ground set of its tokens. -/
lemma GroundText.exists_readGround (h : GroundText ts line) :
    ∃ ground, readGround line = .ok ground ∧ ground.tokens.toList = ts := by
  obtain ⟨ground, made⟩ := GroundSet.exists_ofDistinct_iff.mpr h.distinct
  exact ⟨ground, readGround_eq_ok_iff.mpr ⟨ts, h.single, h.nonempty, made⟩,
    GroundSet.tokens_of_ofDistinct made⟩

/-- The place where reading the first line gives up is quoted. -/
lemma parse_of_readSingle {stuck : List Char} (cut : FirstLine text.toList line rest)
    (read : readSingle line = .error stuck) :
    parse text = .error (.malformedGroundSet (excerpt stuck)) := by
  rw [parse_eq, cut.cutFirstLine_eq, readGround, read]
  rfl

/-- A line that is not one group is refused, whatever follows it. -/
lemma parse_eq_malformedGroundSet (cut : FirstLine text.toList line rest)
    (bad : ¬∃ ts, SingleText ts line) :
    ∃ near, parse text = .error (.malformedGroundSet near) := by
  cases read : readSingle line with
  | ok g => exact absurd ⟨_, singleText_iff.mpr ⟨g, read, rfl⟩⟩ bad
  | error stuck => exact ⟨excerpt stuck, parse_of_readSingle cut read⟩

/-- A first line with a repetition is refused with the first token that repeats another. -/
lemma parse_eq_duplicateGroundElement {t : String} (cut : FirstLine text.toList line rest)
    (single : SingleText ts line) (repeats : FirstRepeat ts t) :
    parse text = .error (.duplicateGroundElement t) := by
  obtain ⟨g, read, rfl⟩ := singleText_iff.mp single
  rw [parse_eq, cut.cutFirstLine_eq, readGround, read]
  dsimp only
  rw [GroundSet.ofDistinct_of_firstRepeat repeats]
  rfl

/-- What reading the family ends with is reported if the first line is good. -/
lemma FirstLine.parse_eq_error {ground : GroundSet} {err : FormatError}
    (cut : FirstLine text.toList line rest) (first : readGround line = .ok ground)
    (refused : readSubsets ground rest = .error err) : parse text = .error err := by
  have line_eq : (cutFirstLine text.toList).1 = line := congrArg Prod.fst cut.cutFirstLine_eq
  have rest_eq : (cutFirstLine text.toList).2 = rest := congrArg Prod.snd cut.cutFirstLine_eq
  rw [← line_eq] at first
  rw [← rest_eq] at refused
  exact parse_eq_error_of_readSubsets first refused

/-- Behind a good first line the place where reading the family gives up is quoted. -/
lemma parse_of_readFamily {stuck : List Char} (cut : FirstLine text.toList line rest)
    (ground : GroundText ts line) (read : readFamily rest = .error stuck) :
    parse text = .error (.malformedFamily (excerpt stuck)) := by
  obtain ⟨g, first, _⟩ := ground.exists_readGround
  refine cut.parse_eq_error first ?_
  rw [readSubsets, read]

/-- Behind a good first line, text without the form of a family is refused for that alone. -/
lemma parse_eq_malformedFamily (cut : FirstLine text.toList line rest) (ground : GroundText ts line)
    (bad : ¬∃ bs, Family BracedText bs rest) :
    ∃ near, parse text = .error (.malformedFamily near) := by
  cases read : readFamily rest with
  | ok gs => exact absurd ⟨_, familyBracedText_iff.mpr ⟨gs, read, rfl⟩⟩ bad
  | error stuck => exact ⟨excerpt stuck, parse_of_readFamily cut ground read⟩

/-- The first token out of place is named, as repeated or as unknown. -/
lemma parse_of_firstMisplaced {bs : List (List String × List Char)} {front : List String}
    {t : String} {inner : List Char} (cut : FirstLine text.toList line rest)
    (ground : GroundText ts line) (family : Family BracedText bs rest)
    (first : FirstMisplaced ts bs front t inner) :
    (t ∈ front → parse text =
      .error (.duplicateSubsetElement t (String.ofList (trim inner)))) ∧
    (t ∉ ts → parse text = .error (.unknownElement t)) := by
  obtain ⟨g, ground_read, rfl⟩ := ground.exists_readGround
  obtain ⟨before_fine, front_fine, _⟩ := first
  -- the groups that were read, cut where the token stands
  obtain ⟨gs, read, groups_eq⟩ := familyBracedText_iff.mp family
  obtain ⟨before, behind, rfl, rfl, behind_eq⟩ := List.map_eq_append_iff.mp groups_eq
  obtain ⟨group, after, rfl, group_eq, rfl⟩ := List.map_eq_cons_iff.mp behind_eq
  obtain ⟨tokens_eq, rfl⟩ := Prod.mk.inj group_eq
  rw [List.forall_mem_map] at before_fine
  have refused := readSubset_eq_error tokens_eq front_fine
  have stop : ∀ {err}, readSubset g group = .error err → parse text = .error err := fun h =>
    cut.parse_eq_error ground_read (readSubsets_eq_error read before_fine h)
  exact ⟨fun repeated => stop (refused.1 repeated), fun unknown => stop (refused.2 unknown)⟩

/-- A text is accepted if no token of its groups is out of place. -/
lemma exists_parse_of_admissible {bs : List (List String × List Char)}
    (cut : FirstLine text.toList line rest) (ground : GroundText ts line)
    (family : Family BracedText bs rest) (fine : ∀ b ∈ bs, Admissible (· ∈ ts) b.1) :
    ∃ i, parse text = .ok i := by
  have form : InstanceText ts (bs.map Prod.fst) text := by
    rw [instanceText_iff, cut.cutFirstLine_eq]
    exact ⟨ground.single, familyText_of_bracedText family⟩
  refine exists_parse_eq_ok form ⟨ground.nonempty, ground.distinct, ?_, ?_⟩
  · exact List.forall_mem_map.mpr fun b hb => (fine b hb).1
  · exact List.forall_mem_map.mpr fun b hb => (fine b hb).2

/-- Parsing ends in one of the ways listed. -/
lemma diagnosis_parse (cut : FirstLine text.toList line rest) :
    Diagnosis line rest (parse text) := by
  -- stage by stage; what a stage asks of the text is known of it in all later ones
  by_cases single : ∃ ts, SingleText ts line
  case neg =>
    obtain ⟨near, h⟩ := parse_eq_malformedGroundSet cut single
    rw [h]
    exact .malformedGroundSet single
  obtain ⟨ts, single⟩ := single
  by_cases distinct : ts.Nodup
  case neg =>
    obtain ⟨t, repeats⟩ := exists_firstRepeat_iff.mpr distinct
    rw [parse_eq_duplicateGroundElement cut single repeats]
    exact .duplicateGroundElement single repeats
  by_cases nonempty : ts = []
  case pos =>
    subst nonempty
    rw [parse_eq_emptyGroundSet (by rw [cut.cutFirstLine_eq]; exact single)]
    exact .emptyGroundSet single
  have ground : GroundText ts line := ⟨single, distinct, nonempty⟩
  by_cases family : ∃ bs, Family BracedText bs rest
  case neg =>
    obtain ⟨near, h⟩ := parse_eq_malformedFamily cut ground family
    rw [h]
    exact .malformedFamily ground family
  obtain ⟨bs, family⟩ := family
  by_cases fine : ∀ b ∈ bs, Admissible (· ∈ ts) b.1
  case pos =>
    obtain ⟨i, h⟩ := exists_parse_of_admissible cut ground family fine
    rw [h]
    exact .accepted ground family fine
  obtain ⟨front, t, inner, first⟩ := exists_firstMisplaced fine
  obtain ⟨repeated, unknown⟩ := parse_of_firstMisplaced cut ground family first
  rcases first.misplaced with out | out
  · rw [repeated out]
    exact .duplicateSubsetElement ground family first out
  · rw [unknown out]
    exact .unknownElement ground family first out

/-! ## Each fault by itself -/

/-- Whatever parsing answers is among the ways of ending. -/
lemma diagnosis_of_parse {r : Except FormatError Instance} (cut : FirstLine text.toList line rest)
    (h : parse text = r) : Diagnosis line rest r := by
  rw [← h]
  exact diagnosis_parse cut

/-- The first line is refused for its form exactly if it is not one group. -/
lemma parse_eq_malformedGroundSet_iff (cut : FirstLine text.toList line rest) :
    (∃ near, parse text = .error (.malformedGroundSet near)) ↔ ¬∃ ts, SingleText ts line := by
  refine ⟨?_, parse_eq_malformedGroundSet cut⟩
  rintro ⟨near, h⟩
  cases diagnosis_of_parse cut h with
  | malformedGroundSet bad => exact bad

/-- A token is reported as repeated exactly if it is the first to repeat another in the ground
set. -/
lemma parse_eq_duplicateGroundElement_iff {t : String} (cut : FirstLine text.toList line rest)
    (single : SingleText ts line) :
    parse text = .error (.duplicateGroundElement t) ↔ FirstRepeat ts t := by
  refine ⟨fun h => ?_, parse_eq_duplicateGroundElement cut single⟩
  cases diagnosis_of_parse cut h with
  | duplicateGroundElement single' repeats =>
    rw [single.unique single']
    exact repeats

/-- The ground set is reported as empty exactly if the first line lists no tokens. -/
lemma parse_eq_emptyGroundSet_iff (cut : FirstLine text.toList line rest)
    (single : SingleText ts line) : parse text = .error .emptyGroundSet ↔ ts = [] := by
  constructor
  · intro h
    cases diagnosis_of_parse cut h with
    | emptyGroundSet single' => exact single.unique single'
  · rintro rfl
    exact parse_eq_emptyGroundSet (by rw [cut.cutFirstLine_eq]; exact single)

/-- Behind a good first line the form is refused exactly if there is no family. -/
lemma parse_eq_malformedFamily_iff (cut : FirstLine text.toList line rest)
    (ground : GroundText ts line) :
    (∃ near, parse text = .error (.malformedFamily near)) ↔ ¬∃ bs, Family BracedText bs rest := by
  refine ⟨?_, parse_eq_malformedFamily cut ground⟩
  rintro ⟨near, h⟩
  cases diagnosis_of_parse cut h with
  | malformedFamily _ bad => exact bad

/-- Behind a good first line a family is accepted exactly if its groups are admissible. -/
lemma exists_parse_iff_admissible {bs : List (List String × List Char)}
    (cut : FirstLine text.toList line rest) (ground : GroundText ts line)
    (family : Family BracedText bs rest) :
    (∃ i, parse text = .ok i) ↔ ∀ b ∈ bs, Admissible (· ∈ ts) b.1 := by
  refine ⟨?_, exists_parse_of_admissible cut ground family⟩
  rintro ⟨i, h⟩
  cases diagnosis_of_parse cut h with
  | accepted ground' family' fine =>
    rw [ground.single.unique ground'.single, familyBracedText_unique family family']
    exact fine

/-- The report says whether the first token out of place is a repetition or unknown. -/
lemma parse_eq_iff_of_firstMisplaced {bs : List (List String × List Char)} {front : List String}
    {t : String} {inner : List Char} (cut : FirstLine text.toList line rest)
    (ground : GroundText ts line) (family : Family BracedText bs rest)
    (first : FirstMisplaced ts bs front t inner) :
    (parse text = .error (.duplicateSubsetElement t (String.ofList (trim inner))) ↔ t ∈ front) ∧
    (parse text = .error (.unknownElement t) ↔ t ∉ ts) := by
  obtain ⟨repeated, unknown⟩ := parse_of_firstMisplaced cut ground family first
  refine ⟨⟨fun h => ?_, repeated⟩, ⟨fun h => ?_, unknown⟩⟩
  · refine first.misplaced.resolve_right fun out => ?_
    rw [unknown out] at h
    cases h
  · refine first.misplaced.resolve_left fun out => ?_
    rw [repeated out] at h
    cases h

end Stages

/-- Which fault of a text is reported. The form of the first line comes first; then the first token
that repeats an earlier one on that line; then the lack of tokens; then the form of the family, also
if a group in front of the fault has a token out of place. What is left are the tokens of the
groups: if one of them repeats an earlier token of its group or is not in the ground set, the first
such token is named, and which of the two it is decides the report, in whichever order a token is
tested for them. -/
theorem parse_reports_first_fault {text : String} {line rest : List Char}
    (cut : FirstLine text.toList line rest) :
    ((∃ near, parse text = .error (.malformedGroundSet near)) ↔ ¬∃ ts, SingleText ts line) ∧
    (∀ ts, SingleText ts line →
      (∀ t, parse text = .error (.duplicateGroundElement t) ↔ FirstRepeat ts t) ∧
      (¬ts.Nodup → ∃ t, FirstRepeat ts t) ∧
      (parse text = .error .emptyGroundSet ↔ ts = [])) ∧
    (∀ ts, GroundText ts line →
      ((∃ near, parse text = .error (.malformedFamily near)) ↔ ¬∃ bs, Family BracedText bs rest) ∧
      ∀ bs, Family BracedText bs rest →
        ((∃ i, parse text = .ok i) ↔
          ¬∃ front t later inner, (front ++ t :: later, inner) ∈ bs ∧ Misplaced ts front t) ∧
        ((∃ front t later inner, (front ++ t :: later, inner) ∈ bs ∧ Misplaced ts front t) →
          ∃ front t inner, FirstMisplaced ts bs front t inner) ∧
        ∀ front t inner, FirstMisplaced ts bs front t inner →
          ¬(t ∈ front ∧ t ∉ ts) ∧
          (parse text = .error (.duplicateSubsetElement t (String.ofList (trim inner))) ↔
            t ∈ front) ∧
          (parse text = .error (.unknownElement t) ↔ t ∉ ts)) ∧
    ∀ ground group, readSubset ground group =
      (readElementsByToken ground group [] group.tokens).map Subset.mk := by
  refine ⟨parse_eq_malformedGroundSet_iff cut, fun ts single => ⟨?_, ?_, ?_⟩,
    fun ts ground => ⟨?_, fun bs family => ⟨?_, ?_, ?_⟩⟩, readSubset_eq_byToken⟩
  · exact fun t => parse_eq_duplicateGroundElement_iff cut single
  · exact exists_firstRepeat_iff.mpr
  · exact parse_eq_emptyGroundSet_iff cut single
  · exact parse_eq_malformedFamily_iff cut ground
  · rw [exists_parse_iff_admissible cut ground family, forall_admissible_iff]
  · exact fun some => exists_firstMisplaced fun fine => forall_admissible_iff.mp fine some
  · intro front t inner first
    exact ⟨first.not_both, parse_eq_iff_of_firstMisplaced cut ground family first⟩

/-- A repetition on the first line, a brace that is missing behind bad groups, and a group with two
tokens out of place, of which the first one is a repetition or unknown. -/
theorem parse_reports_first_fault_four_texts :
    parse "\x7ba b c b a\x7d\n\x7b" = .error (.duplicateGroundElement "b") ∧
    (∃ near, parse "\x7ba b\x7d\n\x7b\x7ba a\x7d\x7bz\x7d" = .error (.malformedFamily near)) ∧
    parse "\x7ba b\x7d\n\x7b\x7ba\x7d\x7b b a b z \x7d\x7bz\x7d\x7d" =
      .error (.duplicateSubsetElement "b" "b a b z") ∧
    parse "\x7ba b\x7d\n\x7b\x7bb\x7d\x7ba z a\x7d\x7bb b\x7d\x7d" =
      .error (.unknownElement "z") := by
  have single : ∀ {ts cs}, (readSingle cs).map Group.tokens = .ok ts → SingleText ts cs :=
    fun h => singleText_iff.mpr (Traversal.map_eq_ok_iff.mp h)
  have ground : ∀ {cs}, (readSingle cs).map Group.tokens = .ok ["a", "b"] →
      GroundText ["a", "b"] cs := fun h => ⟨single h, by decide, by decide⟩
  have family : ∀ {bs cs}, (readFamily cs).map (List.map Group.contents) = .ok bs →
      Family BracedText bs cs := fun h => familyBracedText_iff.mpr (Traversal.map_eq_ok_iff.mp h)
  have unclosed : ∀ {cs}, readFamily cs = .error [] → ¬∃ bs, Family BracedText bs cs := by
    rintro cs stuck ⟨bs, form⟩
    obtain ⟨gs, read, _⟩ := familyBracedText_iff.mp form
    rw [stuck] at read
    cases read
  have faults (text : String) := parse_reports_first_fault (firstLine_cutFirstLine text.toList)
  refine ⟨?_, ?_, ?_, ?_⟩
  · obtain ⟨_, tokens, _⟩ := faults "\x7ba b c b a\x7d\n\x7b"
    obtain ⟨repeats, _⟩ := tokens ["a", "b", "c", "b", "a"] (single (by decide +kernel))
    have first : FirstRepeat (["a", "b", "c"] ++ "b" :: ["a"]) "b" := .mk (by decide) (by decide)
    exact (repeats "b").mpr first
  · obtain ⟨_, _, groups, _⟩ := faults "\x7ba b\x7d\n\x7b\x7ba a\x7d\x7bz\x7d"
    obtain ⟨malformed, _⟩ := groups _ (ground (by decide +kernel))
    exact malformed.mpr (unclosed (by decide +kernel))
  · obtain ⟨_, _, groups, _⟩ := faults "\x7ba b\x7d\n\x7b\x7ba\x7d\x7b b a b z \x7d\x7bz\x7d\x7d"
    obtain ⟨_, named⟩ := groups _ (ground (by decide +kernel))
    obtain ⟨_, _, named⟩ := named [(["a"], ['a']), (["b", "a", "b", "z"], " b a b z ".toList),
      (["z"], ['z'])] (family (by decide +kernel))
    have first : FirstMisplaced ["a", "b"] ([(["a"], ['a'])] ++
        (["b", "a"] ++ "b" :: ["z"], " b a b z ".toList) :: [(["z"], ['z'])])
        ["b", "a"] "b" " b a b z ".toList := .mk (by decide) (by decide) (by decide)
    exact (named _ _ _ first).2.1.mpr (by decide)
  · obtain ⟨_, _, groups, _⟩ := faults "\x7ba b\x7d\n\x7b\x7bb\x7d\x7ba z a\x7d\x7bb b\x7d\x7d"
    obtain ⟨_, named⟩ := groups _ (ground (by decide +kernel))
    obtain ⟨_, _, named⟩ := named [(["b"], ['b']), (["a", "z", "a"], "a z a".toList),
      (["b", "b"], "b b".toList)] (family (by decide +kernel))
    have first : FirstMisplaced ["a", "b"] ([(["b"], ['b'])] ++
        (["a"] ++ "z" :: ["a"], "a z a".toList) :: [(["b", "b"], "b b".toList)])
        ["a"] "z" "a z a".toList := .mk (by decide) (by decide) (by decide)
    exact (named _ _ _ first).2.2.mpr (by decide)

end ExactCover.Instance
