import ExactCover.Model.Reader
import ExactCover.Proofs.Traversal
import ExactCover.Proofs.ValueLines
import Mathlib.Data.List.DropRight

/-!
# Reading models

The output of a solver is a model if its value lines are well formed and their integers, taken
together, close with the only zero among them. `Spread` relates lines of any kind to the integers of
the value lines among them. Reading follows this description on every output, and where it fails it
reports the first malformed line, or else what is wrong with the integers
(`parse_classifies_outputs`).
-/

namespace ExactCover.Model
open ValueLine Text

/-! ## Lines -/

/-- A line that begins like a value line and lists no integers, trailing white space aside. -/
def IllFormed (line : List Char) : Prop :=
  line.head? = some 'v' ∧ ¬∃ zs, LineText zs (trimEnd line)

/-- Integers spread over the value lines among some lines, in order. Lines of other kinds may stand
anywhere. -/
inductive Spread : List Int → List (List Char) → Prop where
  | nil :
    Spread [] []
  | other {zs line lines} :
    line.head? ≠ some 'v' →
    Spread zs lines →
    Spread zs (line :: lines)
  | value {zs zs' line lines} :
    LineText zs (trimEnd line) →
    Spread zs' lines →
    Spread (zs ++ zs') (line :: lines)

/-- The value lines among some lines, without trailing white space. -/
def valueLinesAmong (lines : List (List Char)) : List (List Char) :=
  (lines.filter (·.head? = some 'v')).map trimEnd

/-! ## White space at the end of a line -/

/-- Trimming at the end drops white space from the right. -/
lemma trimEnd_eq_rdropWhile (cs : List Char) : trimEnd cs = cs.rdropWhile isWhiteSpace :=
  rfl

/-- The spacing of value lines is white space. -/
lemma isWhiteSpace_of_isInlineSpacing {c : Char} (h : isInlineSpacing c = true) :
    isWhiteSpace c = true := by
  simp only [isInlineSpacing, Bool.or_eq_true, beq_iff_eq] at h
  rcases h with rfl | rfl <;> decide

/-- A trimmed line has no blanks at its end. -/
lemma eq_nil_of_trimEnd_eq_append {line cs ws : List Char} (h : trimEnd line = cs ++ ws)
    (blank : ∀ c ∈ ws, isInlineSpacing c = true) : ws = [] := by
  by_contra ne
  have trimmed : (cs ++ ws).rdropWhile isWhiteSpace = cs ++ ws := by
    rw [← h]
    exact List.rdropWhile_idempotent isWhiteSpace line
  have last := List.rdropWhile_eq_self_iff.mp trimmed (List.append_ne_nil_of_right_ne_nil cs ne)
  rw [List.getLast_append_of_ne_nil _ ne] at last
  exact last (isWhiteSpace_of_isInlineSpacing (blank _ (List.getLast_mem ne)))

/-- A line that lists integers begins like a value line. -/
lemma head?_of_lineText {zs : List Int} {line : List Char} (h : LineText zs (trimEnd line)) :
    line.head? = some 'v' := by
  obtain ⟨ws, whole⟩ := List.rdropWhile_prefix isWhiteSpace line
  rw [← trimEnd_eq_rdropWhile] at whole
  generalize trimEnd line = trimmed at h whole
  cases h
  rw [← whole]
  rfl

/-- A carriage return at the end of a line is no part of a value line. -/
lemma dropCarriageReturn_cases (line : List Char) :
    dropCarriageReturn line = line ∨ line = dropCarriageReturn line ++ ['\r'] := by
  unfold dropCarriageReturn
  split
  · rename_i last
    obtain ⟨front, rfl⟩ := List.getLast?_eq_some_iff.mp last
    exact .inr (by rw [List.dropLast_concat])
  · exact .inl rfl

/-- A carriage return at the end of a line is trimmed off anyway. -/
lemma trimEnd_dropCarriageReturn (line : List Char) :
    trimEnd (dropCarriageReturn line) = trimEnd line := by
  rcases dropCarriageReturn_cases line with e | e
  · rw [e]
  · conv_rhs => rw [e]
    exact (List.rdropWhile_concat_pos isWhiteSpace _ '\r' (by decide)).symm

/-- Without its carriage return a line begins like a value line exactly if it does with it. -/
lemma head?_dropCarriageReturn (line : List Char) :
    (dropCarriageReturn line).head? = some 'v' ↔ line.head? = some 'v' := by
  rcases dropCarriageReturn_cases line with e | e
  · rw [e]
  · conv_rhs => rw [e]
    cases dropCarriageReturn line with
    | nil => decide
    | cons c cs => rfl

/-! ## The values of lines -/

/-- A line has the values whose integers it lists. -/
lemma readLine_eq_ok_iff {line : List Char} {vs : List Value} :
    readLine (trimEnd line) = .ok vs ↔ LineText (vs.map Value.number) (trimEnd line) := by
  have unfolded : readLine (trimEnd line) = .ok vs ↔ ValueLine.read (trimEnd line) = .ok vs := by
    unfold readLine
    cases ValueLine.read (trimEnd line) with
    | ok vs' => rw [Except.ok.injEq, Except.ok.injEq]
    | error stuck => exact ⟨nofun, nofun⟩
  rw [unfolded, read_eq_ok_iff]
  constructor
  · rintro ⟨cs, ws, text, blank, whole⟩
    rw [eq_nil_of_trimEnd_eq_append whole blank, List.append_nil] at whole
    rwa [whole]
  · intro text
    exact ⟨_, [], text, nofun, (List.append_nil _).symm⟩

/-- A line lists integers exactly if it is read as values with these numbers. -/
lemma exists_readLine_iff {line : List Char} {zs : List Int} :
    LineText zs (trimEnd line) ↔
      ∃ vs, vs.map Value.number = zs ∧ readLine (trimEnd line) = .ok vs := by
  simp only [readLine_eq_ok_iff]
  constructor
  · intro text
    have blank : ∀ c ∈ ([] : List Char), isInlineSpacing c = true := nofun
    obtain ⟨vs, numbers, _⟩ := exists_read_append text blank
    exact ⟨vs, numbers, numbers ▸ text⟩
  · rintro ⟨vs, rfl, text⟩
    exact text

/-- A line that lists no integers is reported as it stands. -/
lemma readLine_eq_error {line : List Char} (h : ¬∃ zs, LineText zs (trimEnd line)) :
    readLine (trimEnd line) = .error (.malformedLine (String.ofList (trimEnd line))) := by
  cases read : ValueLine.read (trimEnd line) with
  | ok vs =>
    have accepted : readLine (trimEnd line) = .ok vs := by
      rw [readLine, read]
    exact absurd ⟨_, readLine_eq_ok_iff.mp accepted⟩ h
  | error stuck => rw [readLine, read]

/-- The value lines of the first lines come first. -/
lemma valueLinesAmong_append (lines lines' : List (List Char)) :
    valueLinesAmong (lines ++ lines') = valueLinesAmong lines ++ valueLinesAmong lines' := by
  rw [valueLinesAmong, List.filter_append, List.map_append, valueLinesAmong, valueLinesAmong]

/-- A value line counts, without its trailing white space. -/
lemma valueLinesAmong_cons_of_head? {line : List Char} (h : line.head? = some 'v')
    (lines : List (List Char)) :
    valueLinesAmong (line :: lines) = trimEnd line :: valueLinesAmong lines := by
  rw [valueLinesAmong, List.filter_cons_of_pos (by simpa using h), List.map_cons, valueLinesAmong]

/-- A line of another kind does not count. -/
lemma valueLinesAmong_cons_of_ne {line : List Char} (h : line.head? ≠ some 'v')
    (lines : List (List Char)) : valueLinesAmong (line :: lines) = valueLinesAmong lines := by
  rw [valueLinesAmong, List.filter_cons_of_neg (by simpa using h), valueLinesAmong]

/-- Integers are spread over lines exactly if they are the integers read line by line. -/
lemma spread_iff {zs : List Int} {lines : List (List Char)} :
    Spread zs lines ↔ ∃ vss, (valueLinesAmong lines).mapM readLine = .ok vss ∧
      vss.flatten.map Value.number = zs := by
  simp only [Traversal.mapM_eq_ok_iff]
  constructor
  · intro spread
    induction spread with
    | nil => exact ⟨[], .nil, rfl⟩
    | other head _ ih =>
      rw [valueLinesAmong_cons_of_ne head]
      exact ih
    | value text _ ih =>
      obtain ⟨vss, read, rfl⟩ := ih
      obtain ⟨vs, rfl, first⟩ := exists_readLine_iff.mp text
      rw [valueLinesAmong_cons_of_head? (head?_of_lineText text)]
      exact ⟨vs :: vss, .cons first read, by rw [List.flatten_cons, List.map_append]⟩
  · rintro ⟨vss, read, rfl⟩
    -- on the lines and not on the readings, for lines of other kinds have none
    induction lines generalizing vss with
    | nil =>
      cases read
      exact .nil
    | cons line lines ih =>
      by_cases head : line.head? = some 'v'
      · rw [valueLinesAmong_cons_of_head? head] at read
        obtain ⟨vs, vss, first, rest, rfl⟩ := List.forall₂_cons_left_iff.mp read
        rw [List.flatten_cons, List.map_append]
        exact .value (readLine_eq_ok_iff.mp first) (ih vss rest)
      · rw [valueLinesAmong_cons_of_ne head] at read
        exact .other head (ih vss read)

/-- Integers can be read off lines exactly if none of the lines is malformed. -/
lemma exists_spread_iff {lines : List (List Char)} :
    (∃ zs, Spread zs lines) ↔ ∀ line ∈ lines, ¬IllFormed line := by
  constructor
  · rintro ⟨zs, spread⟩
    induction spread with
    | nil => exact nofun
    | other head _ ih => exact List.forall_mem_cons.mpr ⟨fun ill => head ill.1, ih⟩
    | value text _ ih => exact List.forall_mem_cons.mpr ⟨fun ill => ill.2 ⟨_, text⟩, ih⟩
  · intro fine
    induction lines with
    | nil => exact ⟨[], .nil⟩
    | cons line lines ih =>
      obtain ⟨first, rest⟩ := List.forall_mem_cons.mp fine
      obtain ⟨zs, spread⟩ := ih rest
      by_cases head : line.head? = some 'v'
      · have text : ∃ zs, LineText zs (trimEnd line) := by
          by_contra none
          exact first ⟨head, none⟩
        obtain ⟨zs', text⟩ := text
        exact ⟨_, .value text spread⟩
      · exact ⟨zs, .other head spread⟩

/-- There are no integers exactly if there are no value lines. -/
lemma Spread.eq_nil_iff {zs : List Int} {lines : List (List Char)} (spread : Spread zs lines) :
    zs = [] ↔ ∀ line ∈ lines, line.head? ≠ some 'v' := by
  induction spread with
  | nil => exact ⟨fun _ => nofun, fun _ => rfl⟩
  | other head _ ih => rw [ih, List.forall_mem_cons, and_iff_right head]
  | value text _ _ =>
    constructor
    · intro none
      rw [List.append_eq_nil_iff] at none
      rw [none.1] at text
      cases text
    · intro none
      exact absurd (head?_of_lineText text) (none _ List.mem_cons_self)

/-! ## The model of all values -/

/-- A sentinel is no literal. -/
lemma literals?_cons_sentinel (vs : List Value) : literals? (.sentinel :: vs) = none := by
  rw [literals?, List.mapM_cons]
  rfl

/-- A literal in front is kept if the others are literals too. -/
lemma literals?_cons_literal (l : Literal) (vs : List Value) :
    literals? (.literal l :: vs) = (literals? vs).map (l :: ·) := by
  rw [literals?, List.mapM_cons, literals?, Option.map_eq_bind]
  rfl

/-- Values are literals if they are listed as such. -/
lemma literals?_eq_some_iff {vs : List Value} {ls : List Literal} :
    literals? vs = some ls ↔ vs = ls.map .literal := by
  induction vs generalizing ls with
  | nil =>
    rw [eq_comm (a := []), List.map_eq_nil_iff, eq_comm (a := ls)]
    exact Option.some_inj
  | cons v vs ih =>
    cases v with
    | sentinel =>
      rw [literals?_cons_sentinel]
      constructor
      · exact nofun
      · intro h
        cases ls <;> cases h
    | literal l =>
      rw [literals?_cons_literal, Option.map_eq_some_iff]
      constructor
      · rintro ⟨ls, rest, rfl⟩
        rw [List.map_cons, ← ih.mp rest]
      · intro h
        obtain ⟨l', ls, rfl, e, rest⟩ := List.map_eq_cons_iff.mp h.symm
        cases e
        exact ⟨ls, ih.mpr rest.symm, rfl⟩

/-- Values are not all literals exactly if there is a sentinel among them. -/
lemma literals?_eq_none_iff {vs : List Value} : literals? vs = none ↔ .sentinel ∈ vs := by
  induction vs with
  | nil => exact ⟨nofun, nofun⟩
  | cons v vs ih =>
    cases v with
    | sentinel => exact ⟨fun _ => List.mem_cons_self, fun _ => literals?_cons_sentinel vs⟩
    | literal l =>
      rw [literals?_cons_literal, Option.map_eq_none_iff, ih, List.mem_cons]
      exact ⟨.inr, fun h => h.resolve_left nofun⟩

/-- What is said of an output whose value lines list the integers `zs`. -/
structure Verdict (zs : List Int) (r : Except ModelError Model) : Prop where
  noValueLines_iff : r = .error .noValueLines ↔ zs = []
  missingSentinel_iff : r = .error .missingSentinel ↔ zs ≠ [] ∧ zs.getLast? ≠ some 0
  misplacedSentinel_iff : r = .error .misplacedSentinel ↔ ∃ front, zs = front ++ [0] ∧ 0 ∈ front
  ok_iff : ∀ front, (∃ m, r = .ok m ∧ m.literals.map Literal.raw = front) ↔
    zs = front ++ [0] ∧ 0 ∉ front

/-- The sentinel is the only value with the number zero. -/
lemma zero_mem_iff {vs : List Value} : 0 ∈ vs.map Value.number ↔ .sentinel ∈ vs :=
  List.mem_map_of_injective Value.number_injective (a := Value.sentinel)

/-- The numbers of literals are those that they are written as. -/
lemma map_number_literal (ls : List Literal) :
    (ls.map Value.literal).map Value.number = ls.map Literal.raw :=
  List.map_map

/-- The numbers of the values decide on the model. -/
lemma verdict_ofValues (vs : List Value) : Verdict (vs.map Value.number) (ofValues vs) := by
  rcases List.eq_nil_or_concat' vs with rfl | ⟨front, v, rfl⟩
  · exact ⟨by simp [ofValues], by simp [ofValues], by simp [ofValues], by simp [ofValues]⟩
  rw [List.map_append, List.map_singleton, ofValues, List.getLast?_concat, List.dropLast_concat]
  cases v with
  | literal l =>
    have ne := l.ne_zero
    constructor <;> simp [Value.number, ne]
  | sentinel =>
    cases h : literals? front with
    | none =>
      have zero := zero_mem_iff.mpr (literals?_eq_none_iff.mp h)
      constructor <;> simp [Value.number, zero]
    | some ls =>
      have nonzero : 0 ∉ front.map Value.number := by
        rw [zero_mem_iff, ← literals?_eq_none_iff, h]
        exact nofun
      obtain rfl := literals?_eq_some_iff.mp h
      rw [map_number_literal] at nonzero ⊢
      constructor <;> simp [Value.number, nonzero]

/-- Once all lines are read, none of them is reported. -/
lemma ofValues_ne_malformedLine (vs : List Value) (text : String) :
    ofValues vs ≠ .error (.malformedLine text) := by
  unfold ofValues
  split
  · exact nofun
  · exact nofun
  · cases literals? vs.dropLast <;> exact nofun

/-! ## Outputs -/

/-- An output is read value line by value line, and then its values together. -/
lemma parse_eq (output : String) :
    parse output = (valueLinesAmong (lines output.toList)).mapM readLine >>= fun vss =>
      ofValues vss.flatten :=
  rfl

/-- The integers of an output decide on it. -/
lemma Spread.verdict {output : String} {zs : List Int} (spread : Spread zs (lines output.toList)) :
    Verdict zs (parse output) := by
  obtain ⟨vss, read, rfl⟩ := spread_iff.mp spread
  rw [parse_eq, read]
  exact verdict_ofValues vss.flatten

/-- The first malformed line is reported, whatever comes after it. -/
lemma parse_eq_error_of_illFormed {output : String} {before after : List (List Char)}
    {line : List Char} (split : lines output.toList = before ++ line :: after)
    (fine : ∀ l ∈ before, ¬IllFormed l) (ill : IllFormed line) :
    parse output = .error (.malformedLine (String.ofList (trimEnd line))) := by
  obtain ⟨zs, spread⟩ := exists_spread_iff.mpr fine
  obtain ⟨vss, read, _⟩ := spread_iff.mp spread
  have stop : (valueLinesAmong (lines output.toList)).mapM readLine =
      .error (.malformedLine (String.ofList (trimEnd line))) := by
    rw [Traversal.mapM_eq_error_iff, split, valueLinesAmong_append,
      valueLinesAmong_cons_of_head? ill.1]
    exact ⟨_, _, _, rfl, Traversal.exists_mapM_eq_ok_iff.mp ⟨vss, read⟩, readLine_eq_error ill.2⟩
  rw [parse_eq, stop]
  rfl

/-- A malformed line is reported exactly if it is the first one. -/
lemma parse_eq_malformedLine_iff {output text : String} :
    parse output = .error (.malformedLine text) ↔ ∃ before line after,
      lines output.toList = before ++ line :: after ∧ (∀ l ∈ before, ¬IllFormed l) ∧
        IllFormed line ∧ text = String.ofList (trimEnd line) := by
  constructor
  · intro h
    by_cases fine : ∀ line ∈ lines output.toList, ¬IllFormed line
    · obtain ⟨zs, spread⟩ := exists_spread_iff.mpr fine
      obtain ⟨vss, read, _⟩ := spread_iff.mp spread
      rw [parse_eq, read] at h
      exact absurd h (ofValues_ne_malformedLine vss.flatten text)
    · obtain ⟨before, line, after, split, fine, ill⟩ := Traversal.exists_first fine
      rw [not_not] at ill
      rw [parse_eq_error_of_illFormed split fine ill] at h
      cases h
      exact ⟨before, line, after, split, fine, ill, rfl⟩
  · rintro ⟨before, line, after, split, fine, ill, rfl⟩
    exact parse_eq_error_of_illFormed split fine ill

/-- The lines of a text may also be cut at its line feeds alone: neither carriage returns nor an
empty last piece matter to the value lines. -/
lemma valueLinesAmong_lines (cs : List Char) :
    valueLinesAmong (lines cs) = valueLinesAmong (cs.splitOn '\n') := by
  have carriageReturns : ∀ ls : List (List Char),
      valueLinesAmong (ls.map dropCarriageReturn) = valueLinesAmong ls := by
    intro ls
    simp only [valueLinesAmong, List.filter_map, List.map_map, Function.comp_def,
      trimEnd_dropCarriageReturn, head?_dropCarriageReturn]
  obtain ⟨front, last, whole⟩ := (List.eq_nil_or_concat' (cs.splitOn '\n')).resolve_left
    (List.splitOn_ne_nil '\n' cs)
  simp only [lines, whole, List.getLastD_concat, List.dropLast_concat]
  rw [valueLinesAmong_append, carriageReturns, valueLinesAmong_append]
  cases last with
  | nil => rfl
  | cons c cs => rfl

/-- Integers spread over lines are found again in the text of these lines. -/
lemma Spread.lines_intercalate {zs : List Int} {ls : List (List Char)} (spread : Spread zs ls)
    (ne : ls ≠ []) (fresh : ∀ line ∈ ls, '\n' ∉ line) :
    Spread zs (lines (['\n'].intercalate ls)) := by
  rw [spread_iff, valueLinesAmong_lines, List.splitOn_intercalate '\n' fresh ne, ← spread_iff]
  exact spread

/-- Every output is either read or refused for a stated reason. The first malformed value line comes
before all else. Without malformed lines the integers of the value lines decide: whether there are
any, whether the last of them is zero, whether another one is zero, and what the model is. So a list
of literals, however it is spread over value lines with lines of other kinds among them, is read
back. -/
theorem parse_classifies_outputs :
    (∀ output text, parse output = .error (.malformedLine text) ↔ ∃ before line after,
      lines output.toList = before ++ line :: after ∧ (∀ l ∈ before, ¬IllFormed l) ∧
        IllFormed line ∧ text = String.ofList (trimEnd line)) ∧
    (∀ output : String, (∀ line ∈ lines output.toList, ¬IllFormed line) →
      ∃ zs, Spread zs (lines output.toList)) ∧
    (∀ output zs, Spread zs (lines output.toList) →
      (parse output = .error .noValueLines ↔
        ∀ line ∈ lines output.toList, line.head? ≠ some 'v') ∧
      (parse output = .error .missingSentinel ↔
        (∃ line ∈ lines output.toList, line.head? = some 'v') ∧ zs.getLast? ≠ some 0) ∧
      (parse output = .error .misplacedSentinel ↔ ∃ front, zs = front ++ [0] ∧ 0 ∈ front) ∧
      (∀ front, (∃ m, parse output = .ok m ∧ m.literals.map Literal.raw = front) ↔
        zs = front ++ [0] ∧ 0 ∉ front)) ∧
    (∀ (ls : List Literal) (rows : List (List Char)), (∀ row ∈ rows, '\n' ∉ row) →
      Spread (ls.map Literal.raw ++ [0]) rows →
        parse (String.ofList (['\n'].intercalate rows)) = .ok ⟨ls⟩) := by
  refine ⟨fun output text => parse_eq_malformedLine_iff, fun output => exists_spread_iff.mpr, ?_, ?_⟩
  · intro output zs spread
    have verdict := spread.verdict
    have empty := spread.eq_nil_iff
    refine ⟨verdict.noValueLines_iff.trans empty, ?_, verdict.misplacedSentinel_iff, verdict.ok_iff⟩
    rw [verdict.missingSentinel_iff, ne_eq, empty]
    simp only [not_forall, not_not, exists_prop]
  · intro ls rows fresh spread
    have ne : rows ≠ [] := by
      rintro rfl
      exact absurd (spread.eq_nil_iff.mpr nofun) (List.append_ne_nil_of_right_ne_nil _ nofun)
    have nonzero : 0 ∉ ls.map Literal.raw := by
      rw [List.mem_map]
      rintro ⟨l, _, zero⟩
      exact l.ne_zero zero
    have spread' := spread.lines_intercalate ne fresh
    rw [← String.toList_ofList (l := ['\n'].intercalate rows)] at spread'
    obtain ⟨⟨ls'⟩, h, same⟩ := (spread'.verdict.ok_iff _).mpr ⟨rfl, nonzero⟩
    have listed : ls' = ls := (List.map_inj_right fun _ _ => Literal.eq_of_raw_eq).mp same
    rw [h, listed]

/-- A model over two lines among others, with other blanks and zeros in front; a zero too early; and a
malformed line behind a model and before another malformed line. -/
theorem parse_classifies_outputs_three :
    parse "c hi\nv -01 2\r\ns SATISFIABLE\nv\t-0 " =
      .ok ⟨[.ofVariable 1 false (by decide), .ofVariable 2 true (by decide)]⟩ ∧
    parse "v 1 0\nv 0" = .error .misplacedSentinel ∧
    parse "v 1 0\nv1\nv x" = .error (.malformedLine "v1") := by
  obtain ⟨malformed, _, judged, reads⟩ := parse_classifies_outputs
  refine ⟨?_, ?_, ?_⟩
  · have spread : Spread [-1, 2, 0] ["c hi".toList, "v -01 2\r".toList, "s SATISFIABLE".toList,
        "v\t-0 ".toList] := by
      refine spread_iff.mpr ⟨[[.literal (.ofVariable 1 false (by decide)),
        .literal (.ofVariable 2 true (by decide))], [.sentinel]], ?_, rfl⟩
      decide +kernel
    have text : String.ofList (['\n'].intercalate ["c hi".toList, "v -01 2\r".toList,
        "s SATISFIABLE".toList, "v\t-0 ".toList]) =
        "c hi\nv -01 2\r\ns SATISFIABLE\nv\t-0 " := by
      decide +kernel
    rw [← text]
    exact reads [.ofVariable 1 false (by decide), .ofVariable 2 true (by decide)] _
      (by decide +kernel) spread
  · have spread : Spread [1, 0, 0] (lines "v 1 0\nv 0".toList) := by
      refine spread_iff.mpr ⟨[[.literal (.ofVariable 1 true (by decide)), .sentinel],
        [.sentinel]], ?_, rfl⟩
      decide +kernel
    obtain ⟨_, _, misplaced, _⟩ := judged _ _ spread
    exact misplaced.mpr ⟨[1, 0], rfl, by decide⟩
  · have first : Spread [1, 0] ["v 1 0".toList] := by
      refine spread_iff.mpr ⟨[[.literal (.ofVariable 1 true (by decide)), .sentinel]], ?_, rfl⟩
      decide +kernel
    refine (malformed _ _).mpr ⟨["v 1 0".toList], "v1".toList, ["v x".toList], by decide +kernel,
      exists_spread_iff.mp ⟨_, first⟩, ⟨rfl, ?_⟩, by decide +kernel⟩
    rintro ⟨zs, text⟩
    obtain ⟨vs, _, read⟩ := exists_readLine_iff.mp text
    have refused : readLine (trimEnd "v1".toList) = .error (.malformedLine "v1") := by decide +kernel
    rw [refused] at read
    cases read

end ExactCover.Model
