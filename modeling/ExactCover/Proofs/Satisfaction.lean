import ExactCover.Encoding
import ExactCover.Proofs.Traversal

/-!
# Satisfaction of an encoded formula

What the clauses of an encoding say about an assignment. The coverage clause of a list holds exactly
if some entry is true (`coverage_holds_iff`), and its exclusivity clauses hold exactly if no two are
(`exclusivity_holds_iff`). Both speak of entries and not of positions: a position that a list repeats
counts as often as it stands there. Together they say that exactly one entry of each list is true
(`holds_iff_of_encode`).

The lists of a formula are positions with proofs that they belong to the family; `encode_eq_ok_iff`
leads from them back to the plain numbers of the occurrence index.
-/

namespace ExactCover.Encoding

/-! ## Checked positions -/

/-- The numbers of a list of positions. -/
def numbers {m : Nat} (list : List (Position m)) : List Nat :=
  list.map Subtype.val

/-- A checked list has the entries of the list that was checked. -/
lemma checkList_eq_ok_iff {m e : Nat} {list : List Nat} {ps : List (Position m)} :
    checkList m e list = .ok ps ↔ list = numbers ps := by
  have entry : ∀ (p : Nat) (q : Position m),
      ((if h : 1 ≤ p ∧ p ≤ m then .ok ⟨p, h⟩ else .error (.positionOutOfRange e p m) :
        Except EncodeError (Position m)) = .ok q) ↔ p = q.1 := by
    intro p q
    split
    · rw [Except.ok.injEq]
      exact ⟨fun h => congrArg Subtype.val h, fun h => Subtype.ext h⟩
    · rename_i out
      exact ⟨nofun, fun h => absurd (h ▸ q.2) out⟩
  rw [checkList, Traversal.mapM_eq_ok_iff]
  simp only [entry]
  rw [numbers, ← List.forall₂_eq_eq_eq, List.forall₂_map_right_iff]

/-- Checked lists have the entries of the lists that were checked. -/
lemma checkLists_eq_ok_iff {m : Nat} {lists : List (List Nat)} {pss : List (List (Position m))} :
    checkLists m lists = .ok pss ↔ lists = pss.map numbers := by
  rw [checkLists, Traversal.mapM_eq_ok_iff]
  simp only [checkList_eq_ok_iff]
  rw [← List.forall₂_map_left_iff (R := fun l ps => l = numbers ps), List.zipIdx_map_fst,
    ← List.forall₂_map_right_iff (R := Eq), List.forall₂_eq_eq_eq]

/-- Numbers that all belong to the family are the numbers of positions. -/
lemma exists_numbers_eq {m : Nat} {list : List Nat} (h : ∀ p ∈ list, 1 ≤ p ∧ p ≤ m) :
    ∃ ps : List (Position m), list = numbers ps := by
  refine ⟨list.attach.map fun p => ⟨p.1, h p.1 p.2⟩, ?_⟩
  simp [numbers, Function.comp_def]

/-- What encoding returns: the formula of the lists, all of whose entries belong to the family. -/
lemma encode_eq_ok_iff {o : OccurrenceIndex} {m : Nat} {f : Formula} :
    o.encode m = .ok f ↔ ∃ (fits : m ≤ maxVariable) (pss : List (List (Position m))),
      o.lists = pss.map numbers ∧ f = Formula.ofClauses m (clauses fits pss) := by
  unfold OccurrenceIndex.encode
  split
  · rename_i fits
    rw [Traversal.map_eq_ok_iff]
    simp only [checkLists_eq_ok_iff]
    constructor
    · rintro ⟨pss, e, rfl⟩
      exact ⟨fits, pss, e, rfl⟩
    · rintro ⟨_, pss, e, rfl⟩
      exact ⟨pss, e, rfl⟩
  · rename_i big
    exact ⟨nofun, fun ⟨fits, _⟩ => absurd fits big⟩

/-- Lists of positions of a family that is not too large are encoded. -/
lemma exists_encode_eq_ok {o : OccurrenceIndex} {m : Nat} (fits : m ≤ maxVariable)
    (inFamily : ∀ list ∈ o.lists, ∀ p ∈ list, 1 ≤ p ∧ p ≤ m) : ∃ f, o.encode m = .ok f := by
  have lists : ∃ pss : List (List (Position m)), o.lists = pss.map numbers := by
    generalize o.lists = lists at inFamily
    induction lists with
    | nil => exact ⟨[], rfl⟩
    | cons list lists ih =>
      obtain ⟨ps, e⟩ := exists_numbers_eq (inFamily list List.mem_cons_self)
      obtain ⟨pss, es⟩ := ih fun l hl => inFamily l (List.mem_cons_of_mem _ hl)
      exact ⟨ps :: pss, by rw [e, es, List.map_cons]⟩
  obtain ⟨pss, e⟩ := lists
  exact ⟨_, encode_eq_ok_iff.mpr ⟨fits, pss, e, rfl⟩⟩

/-! ## What the clauses say -/

variable {m : Nat} {fits : m ≤ maxVariable} {isTrue : Nat → Bool}

/-- The literal of a position holds if the position has the wanted value. -/
@[simp]
lemma holds_literal {selected : Bool} {p : Position m} :
    (literal fits selected p).holds isTrue = (isTrue p.1 == selected) := by
  simp [literal, Literal.holds]

/-- The number of true entries of a list of positions is that of its numbers. -/
lemma countP_numbers (list : List (Position m)) :
    (numbers list).countP isTrue = list.countP fun p => isTrue p.1 :=
  List.countP_map

/-- Coverage: some entry is true. -/
lemma coverage_holds_iff {list : List (Position m)} :
    (coverage fits list).any (Literal.holds isTrue) = true ↔ 0 < (numbers list).countP isTrue := by
  rw [countP_numbers, List.countP_pos_iff]
  simp [coverage]

/-- At most one entry of a list has a property if no two entries, at different places, have it. -/
lemma forall_pairs_iff {α : Type} {P : α → Bool} {list : List α} :
    (∀ ab ∈ pairs list, P ab.1 = true → P ab.2 = false) ↔ list.countP P ≤ 1 := by
  -- the pairs of the first entry, and those of the others, which the hypothesis counts
  induction list with
  | nil => simp [pairs]
  | cons a as ih =>
    have later : (∀ ab ∈ as.map (a, ·), P ab.1 = true → P ab.2 = false) ↔
        (P a = true → as.countP P = 0) := by
      rw [List.countP_eq_zero]
      simp only [List.forall_mem_map, Bool.not_eq_true]
      exact ⟨fun h ha b hb => h b hb ha, fun h b hb ha => h ha b hb⟩
    rw [pairs, List.forall_mem_append, later, ih, List.countP_cons]
    cases P a with
    | false => exact ⟨fun h => h.2, fun h => ⟨nofun, h⟩⟩
    | true =>
      rw [if_pos rfl]
      constructor
      · rintro ⟨none, _⟩
        exact Nat.succ_le_succ (Nat.le_of_eq (none rfl))
      · intro h
        exact ⟨fun _ => by omega, by omega⟩

/-- Exclusivity: no two entries are true. -/
lemma exclusivity_holds_iff {list : List (Position m)} :
    (∀ c ∈ exclusivity fits list, c.any (Literal.holds isTrue) = true) ↔
      (numbers list).countP isTrue ≤ 1 := by
  rw [countP_numbers, ← forall_pairs_iff]
  simp only [exclusivity, List.forall_mem_map, List.any_cons, List.any_nil, Bool.or_false,
    holds_literal, Bool.or_eq_true, beq_false, Bool.not_eq_true']
  refine forall₂_congr fun pq _ => ?_
  cases isTrue pq.1.1 <;> simp

/-- All clauses together: exactly one entry of each list is true. -/
lemma clauses_hold_iff {lists : List (List (Position m))} :
    (∀ c ∈ clauses fits lists, c.any (Literal.holds isTrue) = true) ↔
      ∀ list ∈ lists, (numbers list).countP isTrue = 1 := by
  simp only [clauses, List.forall_mem_append, List.forall_mem_map, List.forall_mem_flatMap,
    coverage_holds_iff, exclusivity_holds_iff]
  constructor
  · rintro ⟨some, one⟩ list h
    have := some list h
    have := one list h
    omega
  · intro h
    refine ⟨fun list hl => ?_, fun list hl => ?_⟩
    · rw [h list hl]
      exact Nat.one_pos
    · exact Nat.le_of_eq (h list hl)

/-- An encoded formula holds exactly if each list has exactly one true entry. -/
lemma holds_iff_of_encode {o : OccurrenceIndex} {f : Formula} (h : o.encode m = .ok f) :
    f.holds isTrue = true ↔ ∀ list ∈ o.lists, list.countP isTrue = 1 := by
  obtain ⟨fits, pss, e, rfl⟩ := encode_eq_ok_iff.mp h
  rw [Formula.holds, Formula.clauses_ofClauses, List.all_eq_true, clauses_hold_iff, e,
    List.forall_mem_map]

end ExactCover.Encoding
