import ExactCover.Proofs.Pairs

/-!
# Which lists can be encoded

Encoding refuses a family with more subsets than there are variables, and lists with an entry that
is no position of the family. The error names the first such entry in reading order, `FirstStray`,
so a refusal depends on the lists and the size of the family alone (`encode_eq_error_iff`).

The literals of an encoding are words of 32 bits with sign. `encodeInWords?` is the encoding as it
is done in such words: all entries are looked through first, and then each of them is cut down to
its lowest 32 bits and negated without another look. The look before makes that safe. No position
that passes it changes when it is cut down, so no literal is missing or belongs to another variable,
and both encodings agree on all lists (`encodeInWords?_eq`).
-/

namespace ExactCover.Encoding

variable {m e p : Nat} {lists : List (List Nat)}

/-! ## The first entry that is no position -/

/-- In reading order, `p` is the first entry of the lists that is no position of a family of `m`
subsets. It stands in the list of the element `e`. -/
inductive FirstStray (m : Nat) : List (List Nat) → Nat → Nat → Prop where
  | mk {lists before front rest after p} :
    lists = before ++ (front ++ p :: rest) :: after →
    (∀ list ∈ before, ∀ q ∈ list, 1 ≤ q ∧ q ≤ m) →
    (∀ q ∈ front, 1 ≤ q ∧ q ≤ m) →
    p = 0 ∨ m < p →
    FirstStray m lists before.length p

/-- The first entry that is no position, by the lists with their numbers. -/
lemma firstStray_iff :
    FirstStray m lists e p ↔ ∃ before list after, lists.zipIdx = before ++ (list, e) :: after ∧
      (∀ le ∈ before, ∀ q ∈ le.1, 1 ≤ q ∧ q ≤ m) ∧
      ∃ front rest, list = front ++ p :: rest ∧ (∀ q ∈ front, 1 ≤ q ∧ q ≤ m) ∧ (p = 0 ∨ m < p) := by
  have numbered : ∀ before : List (List Nat), (∀ le ∈ before.zipIdx, ∀ q ∈ le.1, 1 ≤ q ∧ q ≤ m) ↔
      ∀ list ∈ before, ∀ q ∈ list, 1 ≤ q ∧ q ≤ m := by
    intro before
    conv_rhs => rw [← List.zipIdx_map_fst 0 before, List.forall_mem_map]
  constructor
  · intro stray
    cases stray with
    | @mk before front rest after _ split fine front_fine out =>
      refine ⟨before.zipIdx, front ++ p :: rest, after.zipIdx (before.length + 1), ?_,
        (numbered before).mpr fine, front, rest, rfl, front_fine, out⟩
      rw [split, List.zipIdx_append, List.zipIdx_cons, Nat.zero_add]
  · rintro ⟨before, list, after, split, fine, front, rest, rfl, front_fine, out⟩
    obtain ⟨before', rest', rfl, rfl, tail⟩ := List.zipIdx_eq_append_iff.mp split
    obtain ⟨_, after', rfl, first, rfl⟩ := List.zipIdx_eq_cons_iff.mp tail.symm
    cases first
    rw [Nat.zero_add]
    exact .mk rfl ((numbered before').mp fine) front_fine out

/-- The check of an entry of the list of an element. -/
def checkEntry (m e p : Nat) : Except EncodeError (Position m) :=
  if h : 1 ≤ p ∧ p ≤ m then .ok ⟨p, h⟩ else .error (.positionOutOfRange e p m)

/-- A list is checked entry by entry. -/
lemma checkList_eq_mapM (list : List Nat) : checkList m e list = list.mapM (checkEntry m e) :=
  rfl

/-- An entry is accepted exactly if it is a position. -/
lemma exists_checkEntry_iff : (∃ q, checkEntry m e p = .ok q) ↔ 1 ≤ p ∧ p ≤ m := by
  unfold checkEntry
  split
  · rename_i inside
    exact ⟨fun _ => inside, fun _ => ⟨_, rfl⟩⟩
  · rename_i outside
    exact ⟨nofun, fun inside => absurd inside outside⟩

/-- An entry that is no position is refused with the element and the number of subsets. -/
lemma checkEntry_eq_error_iff {reason : EncodeError} :
    checkEntry m e p = .error reason ↔
      (p = 0 ∨ m < p) ∧ reason = .positionOutOfRange e p m := by
  unfold checkEntry
  split
  · exact ⟨nofun, fun h => by omega⟩
  · rw [Except.error.injEq]
    exact ⟨fun h => ⟨by omega, h.symm⟩, fun h => h.2.symm⟩

/-- A list is refused for its first entry that is no position. -/
lemma checkList_eq_error_iff {list : List Nat} {reason : EncodeError} :
    checkList m e list = .error reason ↔ ∃ p front rest, list = front ++ p :: rest ∧
      (∀ q ∈ front, 1 ≤ q ∧ q ≤ m) ∧ (p = 0 ∨ m < p) ∧ reason = .positionOutOfRange e p m := by
  rw [checkList_eq_mapM, Traversal.mapM_eq_error_iff]
  simp only [exists_checkEntry_iff, checkEntry_eq_error_iff]
  rw [exists_comm]

/-- A list is accepted exactly if all its entries are positions. -/
lemma exists_checkList_iff {list : List Nat} :
    (∃ ps, checkList m e list = .ok ps) ↔ ∀ q ∈ list, 1 ≤ q ∧ q ≤ m := by
  rw [checkList_eq_mapM, Traversal.exists_mapM_eq_ok_iff]
  simp only [exists_checkEntry_iff]

/-- All lists are refused for their first entry that is no position. -/
lemma checkLists_eq_error_iff {reason : EncodeError} :
    checkLists m lists = .error reason ↔
      ∃ e p, FirstStray m lists e p ∧ reason = .positionOutOfRange e p m := by
  rw [checkLists, Traversal.mapM_eq_error_iff]
  simp only [exists_checkList_iff, checkList_eq_error_iff, firstStray_iff]
  constructor
  · rintro ⟨before, ⟨list, e⟩, after, split, fine, p, front, rest, inner, front_fine, out, rfl⟩
    exact ⟨e, p, ⟨before, list, after, split, fine, front, rest, inner, front_fine, out⟩, rfl⟩
  · rintro ⟨e, p, ⟨before, list, after, split, fine, front, rest, inner, front_fine, out⟩, rfl⟩
    exact ⟨before, (list, e), after, split, fine, p, front, rest, inner, front_fine, out, rfl⟩

/-- Encoding refuses too many subsets, and else the first entry that is no position. -/
lemma encode_eq_error_iff {o : OccurrenceIndex} {reason : EncodeError} :
    o.encode m = .error reason ↔
      (maxVariable < m ∧ reason = .tooManySubsets m) ∨
      (m ≤ maxVariable ∧ ∃ e p, FirstStray m o.lists e p ∧ reason = .positionOutOfRange e p m) := by
  unfold OccurrenceIndex.encode
  split
  · rename_i fits
    rw [Traversal.map_eq_error_iff, checkLists_eq_error_iff]
    exact ⟨fun h => .inr ⟨fits, h⟩, fun h => h.elim (fun big => absurd fits (by omega)) (·.2)⟩
  · rename_i big
    rw [Except.error.injEq]
    constructor
    · rintro rfl
      exact .inl ⟨by omega, rfl⟩
    · rintro (⟨_, rfl⟩ | ⟨fits, _⟩)
      · rfl
      · exact absurd fits big

/-- If some entry is no position, one such entry comes first. -/
lemma exists_firstStray_iff :
    (∃ e p, FirstStray m lists e p) ↔ ∃ list ∈ lists, ∃ p ∈ list, p = 0 ∨ m < p := by
  constructor
  · rintro ⟨_, p, stray⟩
    cases stray with
    | @mk before front rest after _ split fine front_fine out =>
      rw [split]
      exact ⟨_, List.mem_append_right _ List.mem_cons_self, p,
        List.mem_append_right _ List.mem_cons_self, out⟩
  · rintro ⟨list, hl, p, hp, out⟩
    cases checked : checkLists m lists with
    | error reason =>
      obtain ⟨e, p, stray, _⟩ := checkLists_eq_error_iff.mp checked
      exact ⟨e, p, stray⟩
    | ok pss =>
      rw [checkLists_eq_ok_iff.mp checked] at hl
      obtain ⟨ps, _, rfl⟩ := List.mem_map.mp hl
      obtain ⟨q, _, rfl⟩ := List.mem_map.mp hp
      have := q.2
      omega

/-! ## Words of 32 bits -/

/-- The literal of a position, made from the lowest 32 bits of the position, read with sign. -/
def wordLiteral? (p : Nat) : Option Literal :=
  Literal.ofInt? (Int32.ofNat p).toInt

/-- The literal with the other sign. -/
def wordNegative? (p : Nat) : Option Literal :=
  (wordLiteral? p).bind Literal.neg?

/-- The clauses of an encoding, made in words of 32 bits. -/
def wordClauses? (lists : List (List Nat)) : Option (List Clause) := do
  let coverage ← lists.mapM fun list => list.mapM wordLiteral?
  let exclusivity ← (lists.flatMap pairs).mapM fun (p, q) => do
    return [← wordNegative? p, ← wordNegative? q]
  return coverage ++ exclusivity

/-- The first entry of the lists that is no position, with the element that it is listed for. -/
def findStray? (m : Nat) (lists : List (List Nat)) : Option (Nat × Nat) :=
  lists.zipIdx.findSome? fun (list, e) => (list.find? fun p => p == 0 || m < p).map (e, ·)

/-- The encoding in words of 32 bits, with the entries looked through before. -/
def encodeInWords? (o : OccurrenceIndex) (m : Nat) : Option (Except EncodeError Formula) :=
  if maxVariable < m then
    some (.error (.tooManySubsets m))
  else
    match findStray? m o.lists with
    | some (e, p) => some (.error (.positionOutOfRange e p m))
    | none => (wordClauses? o.lists).map fun cs => .ok (.ofClauses m cs)

/-- The search finds the first entry that is no position. -/
lemma findStray?_eq_some_iff : findStray? m lists = some (e, p) ↔ FirstStray m lists e p := by
  have passes : ∀ q, (!(q == 0 || decide (m < q))) = true ↔ 1 ≤ q ∧ q ≤ m := by
    intro q
    rw [Bool.not_eq_true', Bool.or_eq_false_iff, beq_eq_false_iff_ne, decide_eq_false_iff_not]
    omega
  have fine : ∀ list : List Nat, (list.find? fun p => p == 0 || m < p) = none ↔
      ∀ q ∈ list, 1 ≤ q ∧ q ≤ m := by
    intro list
    simp only [List.find?_eq_none, ← passes, Bool.not_eq_true, Bool.not_eq_true']
  have found : ∀ (list : List Nat) p, (list.find? fun p => p == 0 || m < p) = some p ↔
      ∃ front rest, list = front ++ p :: rest ∧ (∀ q ∈ front, 1 ≤ q ∧ q ≤ m) ∧ (p = 0 ∨ m < p) := by
    intro list p
    rw [List.find?_eq_some_iff_append]
    simp only [passes, Bool.or_eq_true, beq_iff_eq, decide_eq_true_iff]
    constructor
    · rintro ⟨out, front, rest, split, front_fine⟩
      exact ⟨front, rest, split, front_fine, out⟩
    · rintro ⟨front, rest, split, front_fine, out⟩
      exact ⟨out, front, rest, split, front_fine⟩
  rw [findStray?, List.findSome?_eq_some_iff, firstStray_iff]
  simp only [Option.map_eq_some_iff, Option.map_eq_none_iff, fine, found]
  constructor
  · rintro ⟨before, ⟨list, _⟩, after, split, ⟨_, stray, e⟩, before_fine⟩
    cases e
    exact ⟨before, list, after, split, before_fine, stray⟩
  · rintro ⟨before, list, after, split, before_fine, stray⟩
    exact ⟨before, (list, e), after, split, ⟨p, stray, rfl⟩, before_fine⟩

/-- A position of the family is the same number in 32 bits. -/
lemma wordLiteral?_eq (fits : m ≤ maxVariable) (p : Position m) :
    wordLiteral? p.1 = some (literal fits true p) := by
  have small : p.1 < 2 ^ 31 := Nat.lt_of_le_of_lt (Nat.le_trans p.2.2 fits) (by decide)
  have := p.2.1
  rw [wordLiteral?, Int32.toInt_ofNat_of_lt small, Literal.ofInt?, dif_pos (by omega)]
  rfl

/-- Nor does it change its size when the sign is turned. -/
lemma wordNegative?_eq (fits : m ≤ maxVariable) (p : Position m) :
    wordNegative? p.1 = some (literal fits false p) := by
  have := p.2
  unfold maxVariable at fits
  have raw : (literal fits true p).raw = p.1 := rfl
  rw [wordNegative?, wordLiteral?_eq fits, Option.bind_some, Literal.neg?, Literal.ofInt?,
    dif_pos (by omega)]
  rfl

/-- Made in words of 32 bits, the clauses of positions of the family are the same. -/
lemma wordClauses?_eq (fits : m ≤ maxVariable) (pss : List (List (Position m))) :
    wordClauses? (pss.map numbers) = some (clauses fits pss) := by
  have literals : ∀ ps : List (Position m),
      (numbers ps).mapM wordLiteral? = some (coverage fits ps) := by
    intro ps
    have each : wordLiteral? ∘ Subtype.val = fun p => pure (literal fits true p) :=
      funext (wordLiteral?_eq fits)
    rw [numbers, List.mapM_map, each, List.mapM_pure]
    rfl
  have positive : ((pss.map numbers).mapM fun list => list.mapM wordLiteral?) =
      some (pss.map (coverage fits)) := by
    have each : (fun list : List Nat => list.mapM wordLiteral?) ∘ numbers =
        fun ps => pure (coverage fits ps) := funext literals
    rw [List.mapM_map, each, List.mapM_pure]
    rfl
  have negative : (((pss.map numbers).flatMap pairs).mapM fun (p, q) => do
      return [← wordNegative? p, ← wordNegative? q]) = some (pss.flatMap (exclusivity fits)) := by
    have each : ((fun (p, q) => do return [← wordNegative? p, ← wordNegative? q] :
          Nat × Nat → Option Clause) ∘ Prod.map Subtype.val Subtype.val) =
        fun pq : Position m × Position m =>
          pure [literal fits false pq.1, literal fits false pq.2] := by
      funext pq
      simp [wordNegative?_eq fits]
    rw [flatMap_pairs_numbers, List.mapM_map, each, List.mapM_pure, List.map_flatMap]
    rfl
  rw [wordClauses?, positive, negative]
  rfl

/-- The encoding in words of 32 bits always comes to an end, and to the same one. -/
lemma encodeInWords?_eq (o : OccurrenceIndex) (m : Nat) :
    encodeInWords? o m = some (o.encode m) := by
  unfold encodeInWords?
  by_cases big : maxVariable < m
  · rw [if_pos big, encode_eq_error_iff.mpr (.inl ⟨big, rfl⟩)]
  · rw [if_neg big]
    have fits : m ≤ maxVariable := by omega
    cases search : findStray? m o.lists with
    | some ep =>
      have stray := findStray?_eq_some_iff.mp search
      rw [encode_eq_error_iff.mpr (.inr ⟨fits, _, _, stray, rfl⟩)]
    | none =>
      cases encoded : o.encode m with
      | error reason =>
        rcases encode_eq_error_iff.mp encoded with ⟨big', _⟩ | ⟨_, e, p, stray, _⟩
        · exact absurd big' big
        · rw [findStray?_eq_some_iff.mpr stray] at search
          cases search
      | ok f =>
        obtain ⟨fits, pss, lists, rfl⟩ := encode_eq_ok_iff.mp encoded
        rw [lists, wordClauses?_eq fits]
        rfl

/-! ## All outcomes -/

/-- Every literal of the clauses is that of a position. -/
lemma exists_literal_of_mem {fits : m ≤ maxVariable} {pss : List (List (Position m))} {c : Clause}
    (hc : c ∈ clauses fits pss) {l : Literal} (hl : l ∈ c) :
    ∃ selected p, l = literal fits selected p := by
  rcases List.mem_append.mp hc with hc | hc
  · obtain ⟨ps, _, rfl⟩ := List.mem_map.mp hc
    obtain ⟨p, _, rfl⟩ := List.mem_map.mp hl
    exact ⟨true, p, rfl⟩
  · obtain ⟨ps, _, hc⟩ := List.mem_flatMap.mp hc
    obtain ⟨⟨p, q⟩, _, rfl⟩ := List.mem_map.mp hc
    rcases List.mem_cons.mp hl with rfl | hl
    · exact ⟨false, p, rfl⟩
    · exact ⟨false, q, List.mem_singleton.mp hl⟩

/-- The variables of a formula are the positions of the family. -/
lemma range_of_mem_clauses {o : OccurrenceIndex} {f : Formula} (h : o.encode m = .ok f) {c : Clause}
    (hc : c ∈ f.clauses) {l : Literal} (hl : l ∈ c) : 1 ≤ l.var ∧ l.var ≤ m := by
  obtain ⟨fits, pss, _, rfl⟩ := encode_eq_ok_iff.mp h
  rw [Formula.clauses_ofClauses] at hc
  obtain ⟨selected, p, rfl⟩ := exists_literal_of_mem hc hl
  rw [literal, Literal.var_ofVariable]
  exact p.2

/-- With variables for all subsets, an entry is reported exactly if it is the first that is no
position. -/
lemma encode_eq_positionOutOfRange_iff (fits : m ≤ maxVariable) {o : OccurrenceIndex} {k : Nat} :
    o.encode m = .error (.positionOutOfRange e p k) ↔ FirstStray m o.lists e p ∧ k = m := by
  rw [encode_eq_error_iff]
  constructor
  · rintro (⟨big, _⟩ | ⟨_, e, p, stray, same⟩)
    · exact absurd fits (Nat.not_le_of_lt big)
    · cases same
      exact ⟨stray, rfl⟩
  · rintro ⟨stray, rfl⟩
    exact .inr ⟨fits, e, p, stray, rfl⟩

/-- What becomes of lists that are encoded over a family of `m` subsets. Too many subsets are
refused whatever the lists are. Otherwise the lists are refused if some entry is no position of the
family, and the error names the first such entry, the element that it is listed for and the size of
the family. All other lists are encoded over `m` variables, and no literal is of any other variable.
In words of 32 bits the outcome is the same, and none of the words is out of range. -/
theorem encode_classifies_lists (o : OccurrenceIndex) (m : Nat) :
    (o.encode m = .error (.tooManySubsets m) ↔ maxVariable < m) ∧
    (m ≤ maxVariable →
      ((∃ e p k, o.encode m = .error (.positionOutOfRange e p k)) ↔
        ∃ list ∈ o.lists, ∃ p ∈ list, p = 0 ∨ m < p) ∧
      (∀ e p k, o.encode m = .error (.positionOutOfRange e p k) ↔
        FirstStray m o.lists e p ∧ k = m) ∧
      ((∀ list ∈ o.lists, ∀ p ∈ list, 1 ≤ p ∧ p ≤ m) →
        ∃ f, o.encode m = .ok f ∧ f.vars = m ∧
          ∀ c ∈ f.clauses, ∀ l ∈ c, 1 ≤ l.var ∧ l.var ≤ m)) ∧
    encodeInWords? o m = some (o.encode m) := by
  refine ⟨?_, fun fits => ⟨?_, ?_, ?_⟩, encodeInWords?_eq o m⟩
  · rw [encode_eq_error_iff]
    constructor
    · rintro (⟨big, _⟩ | ⟨_, e, p, _, same⟩)
      · exact big
      · cases same
    · exact fun big => .inl ⟨big, rfl⟩
  · rw [← exists_firstStray_iff]
    simp only [encode_eq_positionOutOfRange_iff fits, exists_and_left, exists_eq, and_true]
  · exact fun e p k => encode_eq_positionOutOfRange_iff fits
  · intro inFamily
    obtain ⟨f, h⟩ := exists_encode_eq_ok fits inFamily
    obtain ⟨_, pss, _, e⟩ := encode_eq_ok_iff.mp h
    refine ⟨f, h, ?_, fun c hc l hl => range_of_mem_clauses h hc hl⟩
    rw [e, Formula.vars_ofClauses]

/-- An entry whose lowest 32 bits are those of zero is refused before a literal is made of it, the
first of two strays is reported, and too many subsets are reported before any stray. -/
theorem encode_classifies_lists_wrapping_entry :
    (⟨[[1], [2, 4294967296, 0]]⟩ : OccurrenceIndex).encode 2 =
        .error (.positionOutOfRange 1 4294967296 2) ∧
    wordLiteral? 4294967296 = none ∧
    (⟨[[0]]⟩ : OccurrenceIndex).encode 2147483648 = .error (.tooManySubsets 2147483648) ∧
    ∃ f, (⟨[[2147483647, 1], []]⟩ : OccurrenceIndex).encode 2147483647 = .ok f ∧
      f.vars = 2147483647 := by
  refine ⟨?_, by decide, ?_, ?_⟩
  · obtain ⟨_, outcomes, _⟩ := encode_classifies_lists ⟨[[1], [2, 4294967296, 0]]⟩ 2
    obtain ⟨_, names, _⟩ := outcomes (by decide)
    have stray : FirstStray 2 [[1], [2, 4294967296, 0]] 1 4294967296 :=
      .mk (show _ = [[1]] ++ ([2] ++ 4294967296 :: [0]) :: [] from rfl) (by decide) (by decide)
        (.inr (by decide))
    exact (names _ _ _).mpr ⟨stray, rfl⟩
  · exact (encode_classifies_lists ⟨[[0]]⟩ 2147483648).1.mpr (by decide)
  · obtain ⟨_, outcomes, _⟩ := encode_classifies_lists ⟨[[2147483647, 1], []]⟩ 2147483647
    obtain ⟨f, encoded, vars, _⟩ := (outcomes (Nat.le_refl _)).2.2 (by decide)
    exact ⟨f, encoded, vars⟩

end ExactCover.Encoding
