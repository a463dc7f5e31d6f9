import ExactCover.Instance.Reader
import ExactCover.Proofs.GroupReading
import ExactCover.Proofs.Incidence
import ExactCover.Proofs.Numbering
import ExactCover.Proofs.Traversal

/-!
# Parsing instances

Which texts are instances, and which instance a text is. `InstanceText` describes the form of an
instance text and the tokens it lists, `Meaningful` says what the tokens must be for the text to name
a ground set and subsets of it. `parse_eq_ok_iff` states that parsing asks for exactly these two and
that the instance depends on the listed tokens alone; what the readers of the parts do is stated the
same way on the way there.

The last section draws the consequences that the later stages live on: the subsets of a parsed
instance stay within its ground set and repeat no element.
-/

namespace ExactCover.Instance
open Brace Text

/-- The form of an instance text: a first line that lists the tokens of the ground set, and a family
of groups, each of which lists the tokens of a subset. -/
inductive InstanceText : List String → List (List String) → String → Prop where
  | mk {ts tss text line rest} :
    text.toList = line ++ '\n' :: rest → '\n' ∉ line →
    SingleText ts line →
    FamilyText tss rest →
    InstanceText ts tss text

/-- The tokens name a ground set and subsets of it. -/
structure Meaningful (ts : List String) (tss : List (List String)) : Prop where
  nonempty : ts ≠ []
  distinct : ts.Nodup
  distinct_of_mem : ∀ us ∈ tss, us.Nodup
  known_of_mem : ∀ us ∈ tss, ∀ t ∈ us, t ∈ ts

/-- The subset that a list of tokens names. -/
def subsetOf (ts us : List String) : Subset :=
  ⟨us.map ts.idxOf⟩

/-! ## The first line -/

/-- No character of a line is a line feed. -/
lemma forall_bne_feed {cs : List Char} (h : '\n' ∉ cs) : ∀ c ∈ cs, (c != '\n') = true :=
  fun _ hc => bne_iff_ne.mpr fun e => h (e ▸ hc)

/-- The first line is what stands in front of the first line feed. -/
lemma cutFirstLine_append {line : List Char} (h : '\n' ∉ line) (rest : List Char) :
    cutFirstLine (line ++ '\n' :: rest) = (line, rest) := by
  have before := forall_bne_feed h
  rw [cutFirstLine, List.takeWhile_append_of_pos before, List.dropWhile_append_of_pos before]
  simp

/-- A text with a line feed is cut at the first one. -/
lemma eq_cutFirstLine_append {cs : List Char} (h : '\n' ∈ cs) :
    '\n' ∉ (cutFirstLine cs).1 ∧ cs = (cutFirstLine cs).1 ++ '\n' :: (cutFirstLine cs).2 := by
  obtain ⟨line, rest, rfl, fresh⟩ := List.eq_append_cons_of_mem h
  rw [cutFirstLine_append fresh]
  exact ⟨fresh, rfl⟩

/-- A text without a line feed has nothing behind its first line. -/
lemma cutFirstLine_of_not_mem {cs : List Char} (h : '\n' ∉ cs) : (cutFirstLine cs).2 = [] := by
  rw [cutFirstLine, List.dropWhile_eq_nil_iff.mpr (forall_bne_feed h), List.tail_nil]

/-- A family is not empty text. -/
lemma not_familyText_nil {tss : List (List String)} : ¬FamilyText tss [] := by
  intro h
  generalize e : ([] : List Char) = cs at h
  cases h
  simp at e

/-- The first line and what follows it make an instance text. -/
lemma instanceText_iff {ts : List String} {tss : List (List String)} {text : String} :
    InstanceText ts tss text ↔
      SingleText ts (cutFirstLine text.toList).1 ∧ FamilyText tss (cutFirstLine text.toList).2 := by
  constructor
  · rintro ⟨e, fresh, single, family⟩
    rw [e, cutFirstLine_append fresh]
    exact ⟨single, family⟩
  · rintro ⟨single, family⟩
    by_cases h : '\n' ∈ text.toList
    · obtain ⟨fresh, e⟩ := eq_cutFirstLine_append h
      exact .mk e fresh single family
    · rw [cutFirstLine_of_not_mem h] at family
      exact absurd family not_familyText_nil

/-- The tokens that a text lists are those of the groups that are read from it. -/
lemma instanceText_iff_read {ts : List String} {tss : List (List String)} {text : String} :
    InstanceText ts tss text ↔
      (readSingle (cutFirstLine text.toList).1).map Group.tokens = .ok ts ∧
        (readFamily (cutFirstLine text.toList).2).map (List.map Group.tokens) = .ok tss := by
  rw [instanceText_iff, singleText_iff, familyText_iff, Traversal.map_eq_ok_iff,
    Traversal.map_eq_ok_iff]

/-- A text lists tokens in one way only. -/
lemma InstanceText.unique {ts ts' : List String} {tss tss' : List (List String)} {text : String}
    (h : InstanceText ts tss text) (h' : InstanceText ts' tss' text) : ts = ts' ∧ tss = tss' := by
  obtain ⟨single, family⟩ := instanceText_iff_read.mp h
  obtain ⟨single', family'⟩ := instanceText_iff_read.mp h'
  rw [single] at single'
  rw [family] at family'
  cases single'
  cases family'
  exact ⟨rfl, rfl⟩

/-! ## The parts -/

/-- The ground set of a line: at least one token, and no token twice. -/
lemma readGround_eq_ok_iff {line : List Char} {ground : GroundSet} :
    readGround line = .ok ground ↔
      ∃ ts, SingleText ts line ∧ ts ≠ [] ∧ GroundSet.ofDistinct ts = .ok ground := by
  have size : ∀ {ts g}, GroundSet.ofDistinct ts = .ok g → (g.size = 0 ↔ ts = []) := by
    intro ts g h
    rw [GroundSet.size_of_ofDistinct h, List.length_eq_zero_iff]
  constructor
  · intro h
    unfold readGround at h
    split at h
    · cases h
    · rename_i group read
      split at h
      · cases h
      · rename_i g made
        split at h
        · cases h
        · rename_i nonempty
          cases h
          exact ⟨group.tokens, singleText_iff.mpr ⟨group, read, rfl⟩,
            fun e => nonempty ((size made).mpr e), made⟩
  · rintro ⟨ts, single, nonempty, made⟩
    obtain ⟨group, read, rfl⟩ := singleText_iff.mp single
    simp only [readGround, read, made]
    rw [if_neg fun e => nonempty ((size made).mp e)]

variable {ground : GroundSet} {group : Group}

/-- The elements of a group: its tokens must be known and distinct, also from those seen before. -/
lemma readElements_eq_ok_iff {seen es : List Nat} {us : List String} :
    readElements ground group seen us = .ok es ↔
      ((∀ t ∈ us, t ∈ ground.tokens.toList) ∧ us.Nodup ∧
        ∀ t ∈ us, ground.tokens.toList.idxOf t ∉ seen) ∧
      es = seen.reverse ++ us.map ground.tokens.toList.idxOf := by
  -- over the tokens still to come, while those seen grow at the front
  induction us generalizing seen with
  | nil =>
    rw [readElements, Except.ok.injEq, List.map_nil, List.append_nil]
    exact ⟨fun e => ⟨⟨nofun, .nil, nofun⟩, e.symm⟩, fun h => h.2.symm⟩
  | cons t us ih =>
    rw [readElements]
    by_cases known : t ∈ ground.tokens.toList
    · rw [GroundSet.indexOf?_of_mem known]
      dsimp only
      split
      · rename_i repeated
        exact ⟨nofun, fun h => absurd repeated (h.1.2.2 t List.mem_cons_self)⟩
      · rename_i fresh
        have later : (∀ u ∈ us, ground.tokens.toList.idxOf u ∉
              ground.tokens.toList.idxOf t :: seen) ↔
            t ∉ us ∧ ∀ u ∈ us, ground.tokens.toList.idxOf u ∉ seen := by
          simp only [List.mem_cons, not_or]
          constructor
          · intro h
            exact ⟨fun ht => (h t ht).1 rfl, fun u hu => (h u hu).2⟩
          · rintro ⟨ht, h⟩ u hu
            refine ⟨fun e => ht ?_, h u hu⟩
            rw [(List.idxOf_inj known).mp e.symm]
            exact hu
        rw [ih, later, List.forall_mem_cons, List.forall_mem_cons, List.nodup_cons,
          List.reverse_cons, List.append_assoc, List.map_cons, List.singleton_append]
        tauto
    · rw [GroundSet.indexOf?_eq_none_iff.mpr known]
      exact ⟨nofun, fun h => absurd (h.1.1 t List.mem_cons_self) known⟩

/-- The subset of a group: its tokens must be known and distinct. -/
lemma readSubset_eq_ok_iff {s : Subset} :
    readSubset ground group = .ok s ↔
      (group.tokens.Nodup ∧ ∀ t ∈ group.tokens, t ∈ ground.tokens.toList) ∧
        s = subsetOf ground.tokens.toList group.tokens := by
  have elements : ∀ es, readElements ground group [] group.tokens = .ok es ↔
      (group.tokens.Nodup ∧ ∀ t ∈ group.tokens, t ∈ ground.tokens.toList) ∧
        es = group.tokens.map ground.tokens.toList.idxOf := by
    intro es
    rw [readElements_eq_ok_iff]
    simp [and_comm]
  rw [readSubset, Traversal.map_eq_ok_iff]
  simp only [elements]
  constructor
  · rintro ⟨_, ⟨ok, rfl⟩, rfl⟩
    exact ⟨ok, rfl⟩
  · rintro ⟨ok, rfl⟩
    exact ⟨_, ⟨ok, rfl⟩, rfl⟩

/-- The family of a text: the tokens of each group must be known and distinct. -/
lemma readSubsets_eq_ok_iff {cs : List Char} {subsets : List Subset} :
    readSubsets ground cs = .ok subsets ↔
      ∃ tss, FamilyText tss cs ∧
        (∀ us ∈ tss, us.Nodup ∧ ∀ t ∈ us, t ∈ ground.tokens.toList) ∧
        subsets = tss.map (subsetOf ground.tokens.toList) := by
  have groups : ∀ gs : List Group, gs.mapM (readSubset ground) = .ok subsets ↔
      (∀ us ∈ gs.map Group.tokens, us.Nodup ∧ ∀ t ∈ us, t ∈ ground.tokens.toList) ∧
        subsets = (gs.map Group.tokens).map (subsetOf ground.tokens.toList) := by
    intro gs
    rw [Traversal.mapM_eq_ok_iff_map fun g s => readSubset_eq_ok_iff, List.forall_mem_map,
      List.map_map]
    rfl
  rw [readSubsets]
  constructor
  · intro h
    split at h
    · cases h
    · rename_i gs read
      exact ⟨gs.map Group.tokens, familyText_iff.mpr ⟨gs, read, rfl⟩, (groups gs).mp h⟩
  · rintro ⟨tss, family, ok⟩
    obtain ⟨gs, read, rfl⟩ := familyText_iff.mp family
    rw [read]
    exact (groups gs).mpr ok

/-! ## The whole -/

/-- A text is parsed exactly if it is an instance text that lists meaningful tokens, and the tokens
make up the instance. -/
lemma parse_eq_ok_iff {text : String} {i : Instance} :
    parse text = .ok i ↔ ∃ ts tss, InstanceText ts tss text ∧ Meaningful ts tss ∧
      GroundSet.ofDistinct ts = .ok i.ground ∧ i.subsets = (tss.map (subsetOf ts)).toArray := by
  obtain ⟨ground, subsets⟩ := i
  -- the two steps of parsing, before what each of them asks for is put in
  have unfolded : parse text = .ok ⟨ground, subsets⟩ ↔
      readGround (cutFirstLine text.toList).1 = .ok ground ∧
        ∃ ss, readSubsets ground (cutFirstLine text.toList).2 = .ok ss ∧ subsets = ss.toArray := by
    rw [parse, Traversal.bind_eq_ok_iff]
    constructor
    · rintro ⟨g, hg, h⟩
      obtain ⟨ss, hs, e⟩ := Traversal.bind_eq_ok_iff.mp h
      cases e
      exact ⟨hg, ss, hs, rfl⟩
    · rintro ⟨hg, ss, hs, rfl⟩
      exact ⟨ground, hg, Traversal.bind_eq_ok_iff.mpr ⟨ss, hs, rfl⟩⟩
  rw [unfolded, readGround_eq_ok_iff]
  simp only [readSubsets_eq_ok_iff, instanceText_iff]
  constructor
  · rintro ⟨⟨ts, single, nonempty, made⟩, _, ⟨tss, family, known, rfl⟩, rfl⟩
    rw [GroundSet.tokens_of_ofDistinct made] at known ⊢
    have distinct := GroundSet.exists_ofDistinct_iff.mp ⟨ground, made⟩
    exact ⟨ts, tss, ⟨single, family⟩,
      ⟨nonempty, distinct, fun us h => (known us h).1, fun us h => (known us h).2⟩, made, rfl⟩
  · rintro ⟨ts, tss, ⟨single, family⟩, ok, made, rfl⟩
    refine ⟨⟨ts, single, ok.nonempty, made⟩, _, ⟨tss, family, ?_, rfl⟩, ?_⟩
    · rw [GroundSet.tokens_of_ofDistinct made]
      exact fun us h => ⟨ok.distinct_of_mem us h, ok.known_of_mem us h⟩
    · rw [GroundSet.tokens_of_ofDistinct made]

/-- An instance text that lists meaningful tokens is parsed. -/
lemma exists_parse_eq_ok {ts : List String} {tss : List (List String)} {text : String}
    (h : InstanceText ts tss text) (ok : Meaningful ts tss) : ∃ i, parse text = .ok i := by
  obtain ⟨ground, made⟩ := GroundSet.exists_ofDistinct_iff.mpr ok.distinct
  exact ⟨⟨ground, _⟩, parse_eq_ok_iff.mpr ⟨ts, tss, h, ok, made, rfl⟩⟩

/-- White space other than spacing has no place in an instance text. -/
lemma InstanceText.onlySpacing {ts : List String} {tss : List (List String)} {text : String}
    (h : InstanceText ts tss text) : OnlySpacing text.toList := by
  obtain ⟨e, _, single, family⟩ := h
  rw [e]
  exact single.onlySpacing.append (.cons (by decide) family.onlySpacing)

section Parsed

variable {ts : List String} {tss : List (List String)} {text : String} {i : Instance}

/-- The tokens that a parsed text lists are meaningful, and they make up the instance. -/
lemma contents_of_parse (form : InstanceText ts tss text) (h : parse text = .ok i) :
    Meaningful ts tss ∧ GroundSet.ofDistinct ts = .ok i.ground ∧
      i.subsets = (tss.map (subsetOf ts)).toArray := by
  obtain ⟨ts', tss', form', contents⟩ := parse_eq_ok_iff.mp h
  obtain ⟨rfl, rfl⟩ := form.unique form'
  exact contents

/-- The elements of a parsed instance are the tokens of the first line, in order. -/
lemma element?_of_parse (form : InstanceText ts tss text) (h : parse text = .ok i) (k : Nat) :
    i.ground.element? k = ts[k]? := by
  obtain ⟨_, made, _⟩ := contents_of_parse form h
  exact GroundSet.element?_of_ofDistinct made k

/-- A parsed instance has one element for each token of the first line. -/
lemma size_of_parse (form : InstanceText ts tss text) (h : parse text = .ok i) :
    i.ground.size = ts.length := by
  obtain ⟨_, made, _⟩ := contents_of_parse form h
  exact GroundSet.size_of_ofDistinct made

/-- A parsed instance has one subset for each group. -/
lemma subsetCount_of_parse (form : InstanceText ts tss text) (h : parse text = .ok i) :
    i.subsetCount = tss.length := by
  obtain ⟨_, _, subsets⟩ := contents_of_parse form h
  rw [subsetCount, subsets, List.size_toArray, List.length_map]

/-- The subsets of a parsed instance are those that the groups name, in order. -/
lemma subset?_of_parse (form : InstanceText ts tss text) (h : parse text = .ok i) (n : Nat) :
    i.subset? (n + 1) = tss[n]?.map (subsetOf ts) := by
  obtain ⟨_, _, subsets⟩ := contents_of_parse form h
  rw [subset?, subsets, List.getElem?_toArray, List.getElem?_map]

end Parsed

/-- Parsing accepts exactly the instance texts that list meaningful tokens, and the instance says of
the tokens what the text says: their order in the ground set, and in each group. Nothing else of the
text matters, and white space other than spacing is refused. -/
theorem parse_reads_instanceText :
    (∀ text, (∃ i, parse text = .ok i) ↔ ∃ ts tss, InstanceText ts tss text ∧ Meaningful ts tss) ∧
    (∀ text ts tss i, InstanceText ts tss text → parse text = .ok i →
      (∀ k, i.ground.element? k = ts[k]?) ∧ i.subsetCount = tss.length ∧
        ∀ p, i.subset? (p + 1) = tss[p]?.map (subsetOf ts)) ∧
    (∀ text text' ts tss i, InstanceText ts tss text → InstanceText ts tss text' →
      parse text = .ok i → parse text' = .ok i) ∧
    (∀ text c, c ∈ text.toList → isWhiteSpace c = true → isSpacing c = false →
      ∀ i, parse text ≠ .ok i) := by
  refine ⟨fun text => ⟨?_, ?_⟩, ?_, ?_, ?_⟩
  · rintro ⟨i, h⟩
    obtain ⟨ts, tss, form, ok, _⟩ := parse_eq_ok_iff.mp h
    exact ⟨ts, tss, form, ok⟩
  · rintro ⟨ts, tss, form, ok⟩
    exact exists_parse_eq_ok form ok
  · intro text ts tss i form h
    exact ⟨element?_of_parse form h, subsetCount_of_parse form h, subset?_of_parse form h⟩
  · intro text text' ts tss i form form' h
    exact parse_eq_ok_iff.mpr ⟨ts, tss, form', contents_of_parse form h⟩
  · intro text c hc blank other i h
    obtain ⟨ts, tss, form, _⟩ := parse_eq_ok_iff.mp h
    rw [form.onlySpacing c hc blank] at other
    cases other

/-- Spacing at every place that allows it changes nothing, and a no-break space is refused. -/
theorem parse_reads_instanceText_layouts :
    (∃ i, parse "\x7bb a\x7d\n\x7b\x7ba b\x7d\x7b\x7d\x7bb\x7d\x7d" = .ok i ∧
      parse " \x7bb\ta \x7d\r\n \x7b \x7ba  b\x7d\x7b \x7d\n\x7b\nb\x7d \x7d\n" = .ok i ∧
      i.ground.element? 0 = some "b" ∧ i.subsetCount = 3 ∧ i.subset? 1 = some ⟨[1, 0]⟩) ∧
    ∀ i, parse "\x7ba\u00a0b\x7d\n\x7b\x7d" ≠ .ok i := by
  have plain : InstanceText ["b", "a"] [["a", "b"], [], ["b"]]
      "\x7bb a\x7d\n\x7b\x7ba b\x7d\x7b\x7d\x7bb\x7d\x7d" :=
    instanceText_iff_read.mpr ⟨by decide +kernel, by decide +kernel⟩
  have spaced : InstanceText ["b", "a"] [["a", "b"], [], ["b"]]
      " \x7bb\ta \x7d\r\n \x7b \x7ba  b\x7d\x7b \x7d\n\x7b\nb\x7d \x7d\n" :=
    instanceText_iff_read.mpr ⟨by decide +kernel, by decide +kernel⟩
  obtain ⟨accepts, contents, same, refuses⟩ := parse_reads_instanceText
  obtain ⟨i, h⟩ := (accepts _).mpr ⟨_, _, plain, by decide, by decide, by decide, by decide⟩
  obtain ⟨elements, count, subsets⟩ := contents _ _ _ _ plain h
  refine ⟨⟨i, h, same _ _ _ _ _ plain spaced h, elements 0, count, ?_⟩, ?_⟩
  · rw [subsets 0]
    decide
  · exact refuses _ (Char.ofNat 0xa0) (by decide) (by decide) (by decide)

/-! ## Parsed instances -/

section Parsed

variable {ts : List String} {tss : List (List String)} {text : String} {i : Instance} {n : Nat}

/-- The subset at a position lists the numbers of the tokens of the group. -/
lemma elementsAt_of_parse (form : InstanceText ts tss text) (h : parse text = .ok i) :
    i.elementsAt (n + 1) = (tss[n]?.getD []).map ts.idxOf := by
  rw [elementsAt, subset?_of_parse form h]
  cases tss[n]? with
  | none => rfl
  | some us => rfl

/-- The tokens of a group, if there is one at the position, are distinct and known. -/
lemma Meaningful.getD (ok : Meaningful ts tss) :
    (tss[n]?.getD []).Nodup ∧ ∀ t ∈ tss[n]?.getD [], t ∈ ts := by
  cases e : tss[n]? with
  | none => exact ⟨.nil, nofun⟩
  | some us =>
    have hus := List.mem_of_getElem? e
    exact ⟨ok.distinct_of_mem us hus, ok.known_of_mem us hus⟩

/-- A parsed instance has a ground set with elements. -/
lemma size_ne_zero_of_parse (h : parse text = .ok i) : i.ground.size ≠ 0 := by
  obtain ⟨ts, tss, form, ok, _⟩ := parse_eq_ok_iff.mp h
  rw [size_of_parse form h, ne_eq, List.length_eq_zero_iff]
  exact ok.nonempty

/-- No subset of a parsed instance repeats an element. -/
lemma noRepeats_of_parse (h : parse text = .ok i) : i.NoRepeats := by
  obtain ⟨ts, tss, form, ok, _⟩ := parse_eq_ok_iff.mp h
  intro p
  cases p with
  | zero => exact .nil
  | succ n =>
    obtain ⟨distinct, known⟩ := ok.getD (n := n)
    rw [elementsAt_of_parse form h]
    exact distinct.map_on fun t ht u _ same => (List.idxOf_inj (known t ht)).mp same

/-- The subsets of a parsed instance stay within its ground set. -/
lemma inGround_of_parse (h : parse text = .ok i) : i.InGround := by
  obtain ⟨ts, tss, form, ok, _⟩ := parse_eq_ok_iff.mp h
  intro s hs e he
  obtain ⟨n, hn, rfl⟩ := Array.mem_iff_getElem.mp hs
  rw [← elementsAt_succ hn, elementsAt_of_parse form h] at he
  obtain ⟨t, ht, rfl⟩ := List.mem_map.mp he
  rw [size_of_parse form h]
  exact List.idxOf_lt_length_of_mem (ok.getD.2 t ht)

end Parsed

end ExactCover.Instance
