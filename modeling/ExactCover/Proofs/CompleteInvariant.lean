import ExactCover.Proofs.DimacsText
import ExactCover.Proofs.Reduction
import Mathlib.Data.List.Sort

/-!
# The DIMACS text as an invariant

Two instance texts lead to the same DIMACS text exactly if they have the same incidence: as many
elements, as many groups, and the same elements in the groups, by number and not by name.

In one direction the formula must be read backwards. The coverage clauses are those without a
negative literal (`filter_isPositive_clauses`); there is one for each element, empty or not, and its
variables are the occurrence list of the element, so the formula tells the whole occurrence index
(`lists_of_encode`). In the other direction the order of the tokens in a group must not show.
It does not, because an occurrence list ascends strictly and so is determined by its entries
(`positionsOf_eq_iff`).
-/

namespace ExactCover

/-! ## Reading a formula backwards -/

namespace Encoding

variable {m m' : Nat} {fits : m ≤ maxVariable}

/-- The coverage clauses are the clauses without negative literals. -/
lemma filter_isPositive_clauses {lists : List (List (Position m))} :
    (clauses fits lists).filter (fun c => c.all Literal.isPositive) =
      lists.map (coverage fits) := by
  have kept : ∀ c ∈ lists.map (coverage fits), c.all Literal.isPositive = true := by
    rw [List.forall_mem_map]
    intro list _
    simp [coverage, literal]
  -- an exclusivity clause begins with a negative literal, while an empty coverage clause is kept
  have dropped : ∀ c ∈ lists.flatMap (exclusivity fits), ¬c.all Literal.isPositive = true := by
    intro c hc
    obtain ⟨list, _, hc⟩ := List.mem_flatMap.mp hc
    obtain ⟨pq, _, rfl⟩ := List.mem_map.mp hc
    simp [literal]
  rw [clauses, List.filter_append, List.filter_eq_self.mpr kept, List.filter_eq_nil_iff.mpr dropped,
    List.append_nil]

/-- The variables of a coverage clause are the entries of its list. -/
lemma map_var_coverage {list : List (Position m)} :
    (coverage fits list).map Literal.var = numbers list := by
  rw [coverage, List.map_map, numbers]
  exact List.map_congr_left fun p _ => Literal.var_ofVariable _ _ _

/-- The clauses of an encoding tell the occurrence lists. -/
lemma lists_of_encode {o : OccurrenceIndex} {f : Formula} (h : o.encode m = .ok f) :
    o.lists =
      (f.clauses.filter fun c => c.all Literal.isPositive).map fun c => c.map Literal.var := by
  obtain ⟨fits, pss, e, rfl⟩ := encode_eq_ok_iff.mp h
  rw [Formula.clauses_ofClauses, filter_isPositive_clauses, List.map_map, e]
  exact List.map_congr_left fun list _ => map_var_coverage.symm

/-- The header of an encoding tells the size of the family. -/
lemma vars_of_encode {o : OccurrenceIndex} {f : Formula} (h : o.encode m = .ok f) :
    f.vars = m := by
  obtain ⟨fits, pss, _, rfl⟩ := encode_eq_ok_iff.mp h
  exact Formula.vars_ofClauses m _

/-- Two encodings have the same text exactly if they are of the same index and the same family. -/
lemma dimacs_eq_iff_of_encode {o o' : OccurrenceIndex} {f f' : Formula} (h : o.encode m = .ok f)
    (h' : o'.encode m' = .ok f') :
    f.dimacs = f'.dimacs ↔ m = m' ∧ o.lists = o'.lists := by
  rw [Formula.dimacs_eq_iff]
  constructor
  · rintro ⟨vars, clauses⟩
    rw [vars_of_encode h, vars_of_encode h'] at vars
    rw [lists_of_encode h, lists_of_encode h', clauses]
    exact ⟨vars, rfl⟩
  · obtain ⟨lists⟩ := o
    obtain ⟨lists'⟩ := o'
    rintro ⟨rfl, rfl⟩
    rw [h] at h'
    cases h'
    exact ⟨rfl, rfl⟩

end Encoding

/-! ## Incidence -/

namespace Instance

variable {i i' : Instance} {f f' : Formula}

/-- The group at a position, counted from one, lists the token that is the element with a number. -/
def Lists (ts : List String) (tss : List (List String)) (e p : Nat) : Prop :=
  ∃ t us, ts[e]? = some t ∧ tss[p - 1]? = some us ∧ t ∈ us

/-- Families of the same size hold an element at the same positions if they do so at the positions
of the family. -/
lemma forall_mem_elementsAt_iff (count : i.subsetCount = i'.subsetCount) {e : Nat} :
    (∀ p, e ∈ i.elementsAt p ↔ e ∈ i'.elementsAt p) ↔
      ∀ p, 1 ≤ p → p ≤ i.subsetCount → (e ∈ i.elementsAt p ↔ e ∈ i'.elementsAt p) := by
  constructor
  · intro same p _ _
    exact same p
  · intro same p
    constructor
    · intro he
      obtain ⟨pos, le⟩ := mem_positions.mp (mem_positions_of_mem he)
      exact (same p pos le).mp he
    · intro he
      obtain ⟨pos, le⟩ := mem_positions.mp (mem_positions_of_mem he)
      exact (same p pos (count ▸ le)).mpr he

/-- Without repetitions an occurrence list is determined by its entries. -/
lemma positionsOf_eq_iff (noRepeats : i.NoRepeats) (noRepeats' : i'.NoRepeats) {e : Nat} :
    i.positionsOf e = i'.positionsOf e ↔ ∀ p, e ∈ i.elementsAt p ↔ e ∈ i'.elementsAt p := by
  simp only [← mem_positionsOf]
  constructor
  · intro same p
    rw [same]
  · intro same
    have ascending : (i.positionsOf e).Pairwise (· < ·) := pairwise_lt_positionsOf noRepeats
    exact ascending.eq_of_mem_iff (pairwise_lt_positionsOf noRepeats') same

/-- The formulas of two instances without repetitions have the same text exactly if the instances
have the same incidence. -/
lemma dimacs_eq_iff_elementsAt (inGround : i.InGround) (inGround' : i'.InGround)
    (noRepeats : i.NoRepeats) (noRepeats' : i'.NoRepeats) (encoded : i.EncodedAs f)
    (encoded' : i'.EncodedAs f') :
    f.dimacs = f'.dimacs ↔ i.ground.size = i'.ground.size ∧ i.subsetCount = i'.subsetCount ∧
      ∀ e < i.ground.size, ∀ p, 1 ≤ p → p ≤ i.subsetCount →
        (e ∈ i.elementsAt p ↔ e ∈ i'.elementsAt p) := by
  obtain ⟨_, index, h⟩ := encoded
  obtain ⟨_, index', h'⟩ := encoded'
  rw [occurrences?_eq_some inGround] at index
  rw [occurrences?_eq_some inGround'] at index'
  cases index
  cases index'
  rw [Encoding.dimacs_eq_iff_of_encode h h']
  constructor
  · rintro ⟨count, lists⟩
    have size := congrArg List.length lists
    rw [List.length_map, List.length_map, List.length_range, List.length_range] at size
    rw [← size] at lists
    refine ⟨size, count, fun e he => (forall_mem_elementsAt_iff count).mp ?_⟩
    rw [← positionsOf_eq_iff noRepeats noRepeats']
    exact List.map_inj_left.mp lists e (List.mem_range.mpr he)
  · rintro ⟨size, count, same⟩
    refine ⟨count, ?_⟩
    rw [← size]
    refine List.map_congr_left fun e he => ?_
    rw [positionsOf_eq_iff noRepeats noRepeats', forall_mem_elementsAt_iff count]
    exact same e (List.mem_range.mp he)

/-! ## Texts -/

variable {ts ts' : List String} {tss tss' : List (List String)} {text text' : String}

/-- A parsed instance has the incidence of its text. -/
lemma mem_elementsAt_iff_lists (form : InstanceText ts tss text) (h : parse text = .ok i)
    {e p : Nat} (pos : 1 ≤ p) : e ∈ i.elementsAt p ↔ Lists ts tss e p := by
  obtain ⟨ok, made, _⟩ := contents_of_parse form h
  have tokens := GroundSet.tokens_of_ofDistinct made
  obtain ⟨n, rfl⟩ := Nat.exists_eq_add_of_le' pos
  have number : ∀ t ∈ ts, ts.idxOf t = e ↔ ts[e]? = some t := by
    intro t ht
    rw [← element?_of_parse form h, ← GroundSet.indexOf?_eq_some_iff,
      GroundSet.indexOf?_of_mem (by rwa [tokens]), tokens, Option.some.injEq]
  rw [elementsAt_of_parse form h, List.mem_map]
  constructor
  · rintro ⟨t, ht, place⟩
    cases group : tss[n]? with
    | none =>
      rw [group] at ht
      cases ht
    | some us =>
      refine ⟨t, us, (number t (ok.getD.2 t ht)).mp place, group, ?_⟩
      rwa [group] at ht
  · rintro ⟨t, us, token, group, ht⟩
    refine ⟨t, ?_, (number t (List.mem_of_getElem? token)).mpr token⟩
    rw [Nat.add_sub_cancel] at group
    rwa [group]

/-- The DIMACS texts of two instances are equal exactly if the instance texts have as many elements,
as many groups, and the same elements in the groups. So the text of the formula keeps the incidence
and nothing else: no names, no layout and no order within a group. -/
theorem dimacs_eq_iff_lists (form : InstanceText ts tss text) (form' : InstanceText ts' tss' text')
    (h : parse text = .ok i) (h' : parse text' = .ok i') (fits : tss.length ≤ maxVariable)
    (fits' : tss'.length ≤ maxVariable) :
    ∃ f f', i.EncodedAs f ∧ i'.EncodedAs f' ∧
      (f.dimacs = f'.dimacs ↔ ts.length = ts'.length ∧ tss.length = tss'.length ∧
        ∀ e < ts.length, ∀ p, 1 ≤ p → p ≤ tss.length →
          (Lists ts tss e p ↔ Lists ts' tss' e p)) := by
  rw [← subsetCount_of_parse form h] at fits
  rw [← subsetCount_of_parse form' h'] at fits'
  obtain ⟨f, encoded, _⟩ := exists_encodedAs (inGround_of_parse h) fits
  obtain ⟨f', encoded', _⟩ := exists_encodedAs (inGround_of_parse h') fits'
  refine ⟨f, f', encoded, encoded', ?_⟩
  rw [dimacs_eq_iff_elementsAt (inGround_of_parse h) (inGround_of_parse h') (noRepeats_of_parse h)
      (noRepeats_of_parse h') encoded encoded',
    size_of_parse form h, size_of_parse form' h', subsetCount_of_parse form h,
    subsetCount_of_parse form' h']
  refine and_congr_right fun _ => and_congr_right fun _ => forall₂_congr fun e _ => ?_
  refine forall₃_congr fun p pos _ => ?_
  rw [mem_elementsAt_iff_lists form h pos, mem_elementsAt_iff_lists form' h' pos]

/-- Other names, another layout and another order within a group do not show. -/
theorem dimacs_eq_iff_lists_renamed :
    ∃ i i' f f', parse "\x7ba b\x7d\n\x7b\x7ba b\x7d\x7bb\x7d\x7d" = .ok i ∧
      parse " \x7bx\ty\x7d\r\n\x7b \x7b y x\x7d \x7by\x7d \x7d\n" = .ok i' ∧ i.EncodedAs f ∧
      i'.EncodedAs f' ∧ f.dimacs = f'.dimacs := by
  have form : InstanceText ["a", "b"] [["a", "b"], ["b"]]
      "\x7ba b\x7d\n\x7b\x7ba b\x7d\x7bb\x7d\x7d" :=
    instanceText_iff_read.mpr ⟨by decide +kernel, by decide +kernel⟩
  have form' : InstanceText ["x", "y"] [["y", "x"], ["y"]]
      " \x7bx\ty\x7d\r\n\x7b \x7b y x\x7d \x7by\x7d \x7d\n" :=
    instanceText_iff_read.mpr ⟨by decide +kernel, by decide +kernel⟩
  obtain ⟨i, h⟩ := exists_parse_eq_ok form ⟨by decide, by decide, by decide, by decide⟩
  obtain ⟨i', h'⟩ := exists_parse_eq_ok form' ⟨by decide, by decide, by decide, by decide⟩
  obtain ⟨f, f', encoded, encoded', same⟩ :=
    dimacs_eq_iff_lists form form' h h' (by decide) (by decide)
  refine ⟨i, i', f, f', h, h', encoded, encoded', same.mpr ⟨rfl, rfl, ?_⟩⟩
  intro e he p pos le
  rw [List.length_cons, List.length_singleton] at he le
  have places : (e = 0 ∨ e = 1) ∧ (p = 1 ∨ p = 2) := by omega
  obtain ⟨rfl | rfl, rfl | rfl⟩ := places <;> simp [Lists]

end Instance

end ExactCover
