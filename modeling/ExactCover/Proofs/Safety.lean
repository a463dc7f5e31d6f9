import ExactCover.Cnf.Dimacs
import ExactCover.Proofs.Selection

/-!
# Instances that were read are safe

The later stages look elements and subsets up by number and have no answer where there is nothing: an
element outside the ground set has no occurrence list and no count, and a position outside the family
has no literal. An instance that was read never leads there. Its occurrence index exists, encoding
refuses it only for the number of its subsets (`encode_eq_error_iff`), and the errors of verification
and selection speak of the variables beyond the family and of the elements of the ground set
(`CoverError.Concerns`). So the way from a text to its DIMACS text, `reduce`, ends in one of three
ways (`parsed_instances_are_safe`).
-/

namespace ExactCover

/-- What an error may say about an instance: which variable is beyond the family, or which element of
the ground set is not covered once. -/
inductive CoverError.Concerns (i : Instance) : CoverError → Prop where
  | unknownVariable {v} :
    i.subsetCount < v →
    Concerns i (.unknownVariable v i.subsetCount)
  | uncovered {t} :
    t ∈ i.ground.tokens.toList →
    Concerns i (.uncovered t)
  | overcovered {t times} :
    t ∈ i.ground.tokens.toList →
    2 ≤ times →
    Concerns i (.overcovered t times)

namespace Instance

variable {i : Instance} {m : Model}

/-! ## The way to the DIMACS text -/

/-- Why a text has no DIMACS text. -/
inductive ReductionError where
  | format (reason : FormatError)
  /-- A subset holds an element outside the ground set. -/
  | strayElement
  | encoding (reason : EncodeError)
  deriving DecidableEq, Repr

/-- The DIMACS text of an instance. -/
def toDimacs (i : Instance) : Except ReductionError String :=
  match i.occurrences? with
  | none => .error .strayElement
  | some o =>
    match o.encode i.subsetCount with
    | .error reason => .error (.encoding reason)
    | .ok f => .ok f.dimacs

/-- The DIMACS text of an instance text. -/
def reduce (text : String) : Except ReductionError String :=
  match parse text with
  | .error reason => .error (.format reason)
  | .ok i => i.toDimacs

/-! ## Encoding -/

/-- There is a coverage clause for each list. -/
lemma size_le_of_encode {o : OccurrenceIndex} {n : Nat} {f : Formula} (h : o.encode n = .ok f) :
    o.size ≤ f.size := by
  obtain ⟨fits, pss, lists, rfl⟩ := Encoding.encode_eq_ok_iff.mp h
  rw [← Formula.length_clauses, Formula.clauses_ofClauses, Encoding.clauses, List.length_append,
    List.length_map, OccurrenceIndex.size, lists, List.length_map]
  exact Nat.le_add_right _ _

/-- Only the number of its subsets keeps an instance from being encoded. -/
lemma encode_eq_error_iff (inGround : i.InGround) {o : OccurrenceIndex}
    (index : i.occurrences? = some o) {reason : EncodeError} :
    o.encode i.subsetCount = .error reason ↔
      maxVariable < i.subsetCount ∧ reason = .tooManySubsets i.subsetCount := by
  by_cases fits : i.subsetCount ≤ maxVariable
  · obtain ⟨f, ⟨o', index', encoded⟩, _⟩ := exists_encodedAs inGround fits
    rw [index] at index'
    cases index'
    rw [encoded]
    exact ⟨nofun, fun h => absurd fits (Nat.not_le_of_lt h.1)⟩
  · rw [OccurrenceIndex.encode, dif_neg fits, Except.error.injEq]
    exact ⟨fun e => ⟨Nat.lt_of_not_le fits, e.symm⟩, fun h => h.2.symm⟩

/-- An instance whose subsets stay within its ground set has a DIMACS text, or it has too many
subsets. -/
lemma toDimacs_cases (inGround : i.InGround) :
    (∃ f, i.EncodedAs f ∧ i.toDimacs = .ok f.dimacs) ∨
      maxVariable < i.subsetCount ∧
        i.toDimacs = .error (.encoding (.tooManySubsets i.subsetCount)) := by
  have index := occurrences?_eq_some inGround
  unfold toDimacs
  rw [index]
  dsimp only
  cases encoded : OccurrenceIndex.encode _ i.subsetCount with
  | ok f => exact .inl ⟨f, ⟨_, index, encoded⟩, rfl⟩
  | error reason =>
    obtain ⟨big, rfl⟩ := (encode_eq_error_iff inGround index).mp encoded
    exact .inr ⟨big, rfl⟩

/-! ## Verification and selection -/

/-- The token of an element is one of the ground set, never the empty stand-in. -/
lemma getD_element?_mem {g : GroundSet} {e : Nat} (h : e < g.size) :
    (g.element? e).getD "" ∈ g.tokens.toList := by
  obtain ⟨t, ht⟩ := exists_element? h
  rw [ht, Option.getD_some]
  rw [GroundSet.element?, ← Array.getElem?_toList] at ht
  exact List.mem_of_getElem? ht

/-- The verdict names elements of the ground set. -/
lemma concerns_of_judge {counts : List Nat} (size : counts.length = i.ground.size) {e : CoverError}
    (h : i.judge counts = .error e) : e.Concerns i := by
  -- whatever count is not one belongs to an element, and the empty token never stands in for it
  have found : ∀ {times k}, counts.zipIdx.find? (·.1 != 1) = some (times, k) →
      (i.ground.element? k).getD "" ∈ i.ground.tokens.toList ∧ times ≠ 1 := by
    intro times k search
    have place := List.mem_zipIdx_iff_getElem?.mp (List.mem_of_find?_eq_some search)
    obtain ⟨inside, _⟩ := List.getElem?_eq_some_iff.mp place
    rw [size] at inside
    have differs := List.find?_some search
    exact ⟨getD_element?_mem inside, by simpa using differs⟩
  unfold judge at h
  split at h
  · cases h
  · rename_i search
    cases h
    exact .uncovered (found search).1
  · rename_i times k covered search
    cases h
    obtain ⟨token, ne⟩ := found search
    refine .overcovered token ?_
    have : times ≠ 0 := covered
    omega

/-- There is a count for each element. -/
lemma length_tally (es : List Nat) : (i.tally es).length = i.ground.size := by
  rw [tally_eq, List.length_map, List.length_range]

/-- A variable beyond the family is one that the error may name. -/
lemma concerns_of_isLeast {v : Nat} {e : CoverError}
    (least : IsLeast {w | m.isTrue w = true ∧ i.subsetCount < w} v)
    (h : e = .unknownVariable v i.subsetCount) : e.Concerns i := by
  rw [h]
  exact .unknownVariable least.1.2

/-- An error of verification is about a variable beyond the family or an element of the ground set. -/
lemma concerns_of_verify (inGround : i.InGround) {e : CoverError} (h : i.verify m = .error e) :
    e.Concerns i := by
  rcases Traversal.bind_eq_error_iff.mp h with unknown | ⟨es, _, judged⟩
  · obtain ⟨v, least, e⟩ := (mapM_trueVars_eq_error_iff
      (fun p => by simp only [checkSubset_eq_ok_iff inGround, exists_and_left, exists_eq, and_true])
      fun p e => checkSubset_eq_error_iff inGround).mp unknown
    exact concerns_of_isLeast least e
  · exact concerns_of_judge (length_tally _) judged

/-- An error of a selection is about a variable beyond the family. -/
lemma concerns_of_selected {e : CoverError} (h : i.selected m = .error e) : e.Concerns i := by
  obtain ⟨v, least, e⟩ := selected_eq_error_iff.mp h
  exact concerns_of_isLeast least e

/-! ## Parsed instances -/

section Parsed

variable {ts : List String} {tss : List (List String)} {text : String}

/-- The tokens of a subset are those of its group, all of them. -/
lemma tokens?_of_parse (form : InstanceText ts tss text) (h : parse text = .ok i) (n : Nat) :
    i.tokens? (n + 1) = tss[n]? := by
  obtain ⟨ok, _, _⟩ := contents_of_parse form h
  rw [tokens?, subset?_of_parse form h, Option.map_map]
  cases group : tss[n]? with
  | none => rfl
  | some us =>
    have back : ∀ t ∈ us, i.ground.element? (ts.idxOf t) = some t := by
      intro t ht
      rw [element?_of_parse form h]
      exact List.getElem?_idxOf (ok.known_of_mem us (List.mem_of_getElem? group) t ht)
    have tokens : (us.map ts.idxOf).filterMap i.ground.element? = us := by
      rw [List.filterMap_map]
      exact (List.filterMap_congr back).trans List.filterMap_some
    exact congrArg some tokens

end Parsed

/-- An instance that was read keeps what the later stages rely on, and so none of them meets a number
with nothing behind it. On any text at all the reduction ends in a DIMACS text, in an error of the
format or with too many subsets. -/
theorem parsed_instances_are_safe :
    (∀ text i, parse text = .ok i →
      0 < i.ground.size ∧
      (∀ s ∈ i.subsets, s.elements.Nodup ∧ ∀ e ∈ s.elements, e < i.ground.size) ∧
      (∃ ts tss, InstanceText ts tss text ∧ i.subsetCount = tss.length ∧
        ∀ p, 1 ≤ p → p ≤ i.subsetCount → ∃ us, tss[p - 1]? = some us ∧ i.tokens? p = some us) ∧
      (∃ o, i.occurrences? = some o ∧
        (∀ list ∈ o.lists, ∀ p ∈ list, 1 ≤ p ∧ p ≤ i.subsetCount) ∧
        (∀ reason, o.encode i.subsetCount = .error reason ↔
          maxVariable < i.subsetCount ∧ reason = .tooManySubsets i.subsetCount) ∧
        ∀ f, o.encode i.subsetCount = .ok f → o.size ≤ f.size) ∧
      ∀ m e, i.verify m = .error e ∨ i.selected m = .error e → e.Concerns i) ∧
    (∀ text, (∃ i f, parse text = .ok i ∧ i.EncodedAs f ∧ reduce text = .ok f.dimacs) ∨
      (∃ reason, parse text = .error reason ∧ reduce text = .error (.format reason)) ∨
      ∃ i, parse text = .ok i ∧ maxVariable < i.subsetCount ∧
        reduce text = .error (.encoding (.tooManySubsets i.subsetCount))) := by
  constructor
  · intro text i h
    have inGround := inGround_of_parse h
    have index := occurrences?_eq_some inGround
    refine ⟨Nat.pos_of_ne_zero (size_ne_zero_of_parse h), ?_, ?_, ⟨_, index, ?_, ?_, ?_⟩, ?_⟩
    · intro s hs
      obtain ⟨n, hn, rfl⟩ := Array.mem_iff_getElem.mp hs
      have distinct := noRepeats_of_parse h (n + 1)
      rw [elementsAt_succ hn] at distinct
      exact ⟨distinct, inGround _ hs⟩
    · obtain ⟨ts, tss, form, _⟩ := parse_eq_ok_iff.mp h
      have count := subsetCount_of_parse form h
      refine ⟨ts, tss, form, count, fun p pos le => ?_⟩
      obtain ⟨n, rfl⟩ := Nat.exists_eq_add_of_le' pos
      have group : tss[n]? = some tss[n] := List.getElem?_eq_getElem (by omega)
      exact ⟨tss[n], group, (tokens?_of_parse form h n).trans group⟩
    · rw [List.forall_mem_map]
      exact fun e _ p hp => range_of_mem_positionsOf hp
    · exact fun reason => encode_eq_error_iff inGround index
    · exact fun f encoded => size_le_of_encode encoded
    · rintro m e (verified | selected)
      · exact concerns_of_verify inGround verified
      · exact concerns_of_selected selected
  · intro text
    unfold reduce
    cases h : parse text with
    | error reason => exact .inr (.inl ⟨reason, rfl, rfl⟩)
    | ok i =>
      rcases toDimacs_cases (inGround_of_parse h) with ⟨f, encoded, dimacs⟩ | ⟨big, refused⟩
      · exact .inl ⟨i, f, rfl, encoded, dimacs⟩
      · exact .inr (.inr ⟨i, rfl, big, refused⟩)

/-- A family with an empty group, a model with a variable beyond it, and a text that ends too soon. -/
theorem parsed_instances_are_safe_three_groups :
    (∃ i f, parse "\x7ba b\x7d\n\x7b\x7bb\x7d\x7b\x7d\x7bb a\x7d\x7d" = .ok i ∧
      i.tokens? 2 = some [] ∧ i.tokens? 3 = some ["b", "a"] ∧
      reduce "\x7ba b\x7d\n\x7b\x7bb\x7d\x7b\x7d\x7bb a\x7d\x7d" = .ok (Formula.dimacs f) ∧
      ∃ e, i.selected ⟨[.ofVariable 7 true (by decide)]⟩ = .error e ∧ e.Concerns i) ∧
    ∃ reason, reduce "\x7ba b" = .error (.format reason) := by
  obtain ⟨safe, ends⟩ := parsed_instances_are_safe
  have cut : parse "\x7ba b" = .error (.malformedGroundSet "end of input") := by
    rfl
  have form : InstanceText ["a", "b"] [["b"], [], ["b", "a"]]
      "\x7ba b\x7d\n\x7b\x7bb\x7d\x7b\x7d\x7bb a\x7d\x7d" :=
    instanceText_iff_read.mpr ⟨by decide +kernel, by decide +kernel⟩
  obtain ⟨i, h⟩ := exists_parse_eq_ok form ⟨by decide, by decide, by decide, by decide⟩
  obtain ⟨_, _, ⟨ts, tss, form', count, tokens⟩, _, errors⟩ := safe _ i h
  obtain ⟨rfl, rfl⟩ := form.unique form'
  have few : i.subsetCount = 3 := count
  refine ⟨?_, ?_⟩
  · obtain ⟨second, place, tokens₂⟩ := tokens 2 (by decide) (by omega)
    obtain ⟨third, place', tokens₃⟩ := tokens 3 (by decide) (by omega)
    cases place
    cases place'
    have written : ∃ f, reduce "\x7ba b\x7d\n\x7b\x7bb\x7d\x7b\x7d\x7bb a\x7d\x7d" =
        .ok (Formula.dimacs f) := by
      rcases ends "\x7ba b\x7d\n\x7b\x7bb\x7d\x7b\x7d\x7bb a\x7d\x7d" with
        ⟨_, f, _, _, text⟩ | ⟨_, refused, _⟩ | ⟨j, parsed, big, _⟩
      · exact ⟨f, text⟩
      · rw [h] at refused
        cases refused
      · rw [h] at parsed
        cases parsed
        rw [few] at big
        exact absurd big (by decide)
    obtain ⟨f, text⟩ := written
    refine ⟨i, f, h, tokens₂, tokens₃, text, ?_⟩
    cases selected : i.selected ⟨[.ofVariable 7 true (by decide)]⟩ with
    | error e => exact ⟨e, rfl, errors _ e (.inr selected)⟩
    | ok lists =>
      have beyond := mem_positions.mp ((selected_eq_ok_iff.mp selected).1 7 (List.mem_singleton.mpr rfl))
      omega
  · rcases ends "\x7ba b" with ⟨_, _, parsed, _⟩ | ⟨reason, _, refused⟩ | ⟨_, parsed, _⟩
    · rw [cut] at parsed
      cases parsed
    · exact ⟨reason, refused⟩
    · rw [cut] at parsed
      cases parsed

end Instance

end ExactCover
