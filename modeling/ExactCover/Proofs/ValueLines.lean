import ExactCover.Model.ValueLine
import ExactCover.Proofs.Runs

/-!
# The grammar of value lines

A value line, described without a reader, and the proof that the reader accepts the lines of the
grammar and no others. `LineText` relates a line to the integers it lists and leaves open how they
are written: how many blanks stand before an integer, and how many zeros in front of its digits.

Two things make the reader agree with a grammar in which nothing is said about where an integer ends.
The digits of an integer are the longest run, and behind an integer stands a blank or nothing
(`readValue_append`). And the reader leaves off before an integer that it cannot read, with the blanks
in front of it, so what is left over at the end of a line is blank exactly if the line is in the
grammar (`read_eq_ok_iff`).
-/

namespace ExactCover.ValueLine
open Text

/-! ## The texts -/

/-- A non-empty run of spaces and tabs. -/
def IsGap (cs : List Char) : Prop :=
  cs ≠ [] ∧ ∀ c ∈ cs, isInlineSpacing c = true

/-- A non-empty run of digits. -/
def IsDigits (cs : List Char) : Prop :=
  cs ≠ [] ∧ ∀ c ∈ cs, c.isDigit = true

/-- An integer of 32 bits with sign: digits, with a minus sign before them if it is negative or, at
will, if it is zero. -/
inductive IntegerText : Int → List Char → Prop where
  | plain {ds} :
    IsDigits ds →
    Decimal.value ds ≤ 2147483647 →
    IntegerText (Decimal.value ds) ds
  | minus {ds} :
    IsDigits ds →
    Decimal.value ds ≤ 2147483648 →
    IntegerText (-Decimal.value ds) ('-' :: ds)

/-- Integers one after another, each with a gap before it. -/
inductive IntegerRun : List Int → List Char → Prop where
  | nil :
    IntegerRun [] []
  | cons {z zs ws t cs} :
    IsGap ws →
    IntegerText z t →
    IntegerRun zs cs →
    IntegerRun (z :: zs) (ws ++ t ++ cs)

/-- A value line: the letter and at least one integer. -/
inductive LineText : List Int → List Char → Prop where
  | mk {z zs cs} :
    IntegerRun (z :: zs) cs →
    LineText (z :: zs) ('v' :: cs)

/-! ## Integers -/

/-- The integer that a value stands for. -/
def Value.number : Value → Int
  | .sentinel => 0
  | .literal l => l.raw

/-- An integer means the value that stands for it. -/
lemma Value.ofInt?_eq_some_iff {z : Int} {v : Value} : ofInt? z = some v ↔ v.number = z := by
  unfold ofInt?
  by_cases zero : z = 0
  · rw [if_pos zero, Option.some.injEq]
    constructor
    · rintro rfl
      exact zero.symm
    · intro h
      cases v with
      | sentinel => rfl
      | literal l => exact absurd (h.trans zero) l.ne_zero
  · rw [if_neg zero, Option.map_eq_some_iff]
    constructor
    · rintro ⟨l, h, rfl⟩
      obtain ⟨_, e⟩ := Option.dite_none_right_eq_some.mp h
      cases e
      rfl
    · rintro rfl
      cases v with
      | sentinel => exact absurd rfl zero
      | literal l =>
        refine ⟨l, ?_, rfl⟩
        exact Option.dite_none_right_eq_some.mpr ⟨⟨l.ne_zero, l.lower, l.upper⟩, rfl⟩

/-- Values with the same number are the same. -/
lemma Value.number_injective : Function.Injective Value.number := by
  intro v w h
  have := Value.ofInt?_eq_some_iff.mpr h
  rwa [Value.ofInt?_eq_some_iff.mpr rfl, Option.some.injEq, eq_comm] at this

/-- The integers that mean a value are those of 32 bits with sign. -/
lemma Value.exists_number_eq_iff {z : Int} :
    (∃ v : Value, v.number = z) ↔ -2147483648 ≤ z ∧ z ≤ 2147483647 := by
  constructor
  · rintro ⟨v, rfl⟩
    cases v with
    | sentinel => decide
    | literal l => exact ⟨l.lower, l.upper⟩
  · rintro ⟨lower, upper⟩
    by_cases zero : z = 0
    · exact ⟨.sentinel, zero.symm⟩
    · exact ⟨.literal ⟨z, zero, lower, upper⟩, rfl⟩

/-! ## Where a run ends -/

/-- Spacing has no digits. -/
lemma isDigit_of_isInlineSpacing {c : Char} (h : isInlineSpacing c = true) : c.isDigit = false := by
  simp only [isInlineSpacing, Bool.or_eq_true, beq_iff_eq] at h
  rcases h with rfl | rfl <;> rfl

/-- A digit is no spacing. -/
lemma isInlineSpacing_of_isDigit {c : Char} (h : c.isDigit = true) : isInlineSpacing c = false := by
  by_contra blank
  rw [Bool.not_eq_false] at blank
  rw [isDigit_of_isInlineSpacing blank] at h
  cases h

/-- An integer does not begin with spacing. -/
lemma IntegerText.stops {z : Int} {t : List Char} (h : IntegerText z t) : Stops isInlineSpacing t := by
  cases h with
  | plain digits _ => exact .of_forall fun c hc => isInlineSpacing_of_isDigit (digits.2 c hc)
  | minus _ _ =>
    intro c hc
    cases hc
    rfl

/-- An integer has at least one character. -/
lemma IntegerText.ne_nil {z : Int} {t : List Char} (h : IntegerText z t) : t ≠ [] := by
  cases h with
  | plain digits _ => exact digits.1
  | minus _ _ => exact nofun

/-- No integer reaches into what follows it: the next gap, or blanks at the end of the line. -/
lemma IntegerRun.stops {zs : List Int} {cs ws : List Char} (run : IntegerRun zs cs)
    (blank : ∀ c ∈ ws, isInlineSpacing c = true) : Stops Char.isDigit (cs ++ ws) := by
  cases run with
  | nil => exact .of_forall fun c hc => isDigit_of_isInlineSpacing (blank c hc)
  | cons gap _ _ =>
    rw [List.append_assoc, List.append_assoc]
    exact (Stops.of_forall fun c hc => isDigit_of_isInlineSpacing (gap.2 c hc)).append gap.1 _

/-! ## Reading integers -/

/-- Digits that no digit follows are read to their end, with the sign before them. -/
lemma readValue_of_dropMinus {cs ds rest : List Char} {v : Value}
    (split : dropMinus cs = ds ++ rest) (digits : IsDigits ds) (stop : Stops Char.isDigit rest)
    (h : v.number = signedBy cs ds) : readValue cs = .ok (v, rest) := by
  have taken := takeWhile_append_stop digits.2 stop
  have left := dropWhile_append_stop digits.2 stop
  rw [← split] at taken left
  obtain ⟨d, ds', rfl⟩ := List.exists_cons_of_ne_nil digits.1
  rw [readValue, taken, left]
  simp only [Value.ofInt?_eq_some_iff.mpr h]

/-- An integer is read wherever no digit follows it. -/
lemma readValue_append {z : Int} {t rest : List Char} (h : IntegerText z t)
    (stop : Stops Char.isDigit rest) : ∃ v, v.number = z ∧ readValue (t ++ rest) = .ok (v, rest) := by
  cases h with
  | plain digits upper =>
    have fits : -2147483648 ≤ (Decimal.value t : Int) ∧ (Decimal.value t : Int) ≤ 2147483647 := by
      omega
    obtain ⟨v, hv⟩ := Value.exists_number_eq_iff.mpr fits
    have unsigned : (t ++ rest).head? ≠ some '-' := by
      obtain ⟨d, ds, rfl⟩ := List.exists_cons_of_ne_nil digits.1
      rintro ⟨⟩
      exact absurd (digits.2 '-' List.mem_cons_self) (by decide)
    refine ⟨v, hv, readValue_of_dropMinus ?_ digits stop ?_⟩
    · unfold dropMinus
      split
      · rename_i e
        rw [e] at unsigned
        exact absurd rfl unsigned
      · rfl
    · rw [signedBy, if_neg unsigned, hv]
  | @minus ds digits upper =>
    have fits : -2147483648 ≤ -(Decimal.value ds : Int) ∧ -(Decimal.value ds : Int) ≤ 2147483647 := by
      omega
    obtain ⟨v, hv⟩ := Value.exists_number_eq_iff.mpr fits
    exact ⟨v, hv, readValue_of_dropMinus rfl digits stop hv⟩

/-- What is read as an integer is one. -/
lemma exists_of_readValue {cs rest : List Char} {v : Value} (h : readValue cs = .ok (v, rest)) :
    ∃ t, IntegerText v.number t ∧ cs = t ++ rest := by
  unfold readValue at h
  split at h
  · cases h
  · rename_i d ds taken
    split at h
    · rename_i v' meaning
      cases h
      rw [Value.ofInt?_eq_some_iff] at meaning
      have fits := Value.exists_number_eq_iff.mp ⟨v, rfl⟩
      have digits : IsDigits (d :: ds) := by
        refine ⟨nofun, fun c hc => ?_⟩
        rw [← taken] at hc
        exact List.mem_takeWhile_imp hc
      have whole := List.takeWhile_append_dropWhile (p := Char.isDigit) (l := dropMinus cs)
      rw [taken] at whole
      rw [meaning] at fits ⊢
      unfold signedBy at fits ⊢
      -- the bounds of the value are those of the digits, with the sign or without
      by_cases minus : cs.head? = some '-'
      · rw [if_pos minus] at fits ⊢
        obtain ⟨cs, rfl⟩ := List.head?_eq_some_iff.mp minus
        exact ⟨_, .minus digits (by omega), congrArg ('-' :: ·) whole.symm⟩
      · rw [if_neg minus] at fits ⊢
        have plain : dropMinus cs = cs := by
          unfold dropMinus
          split
          · exact absurd rfl minus
          · rfl
        rw [plain] at whole ⊢
        exact ⟨_, .plain digits (by omega), whole.symm⟩
    · cases h

/-! ## Reading lines -/

/-- A gap is seen by its first character and skipped up to what follows it. -/
lemma gap_append {ws cs : List Char} (gap : IsGap ws) (stop : Stops isInlineSpacing cs) :
    (ws ++ cs).head?.any isInlineSpacing = true ∧ (ws ++ cs).dropWhile isInlineSpacing = cs := by
  refine ⟨?_, dropWhile_append_stop gap.2 stop⟩
  obtain ⟨w, ws, rfl⟩ := List.exists_cons_of_ne_nil gap.1
  exact gap.2 w List.mem_cons_self

/-- Where spacing comes first there is a gap, and it is what is skipped. -/
lemma exists_gap {cs : List Char} (h : cs.head?.any isInlineSpacing = true) :
    ∃ ws, IsGap ws ∧ cs = ws ++ cs.dropWhile isInlineSpacing := by
  refine ⟨cs.takeWhile isInlineSpacing, ⟨?_, fun c hc => List.mem_takeWhile_imp hc⟩,
    List.takeWhile_append_dropWhile.symm⟩
  cases cs with
  | nil => cases h
  | cons c cs =>
    have first : isInlineSpacing c = true := h
    rw [List.takeWhile_cons_of_pos first]
    exact nofun

/-- An integer behind a gap is the first of those read. -/
lemma readValues_of_ok {cs rest : List Char} {v : Value}
    (blank : cs.head?.any isInlineSpacing = true)
    (h : readValue (cs.dropWhile isInlineSpacing) = .ok (v, rest)) :
    readValues cs = (v :: (readValues rest).1, (readValues rest).2) := by
  rw [readValues, if_pos blank]
  split
  · rename_i e
    rw [h] at e
    cases e
    rfl
  · rename_i e
    rw [h] at e
    cases e

/-- Where no integer can be read the run ends, before the blanks. -/
lemma readValues_of_error {cs stuck : List Char}
    (h : readValue (cs.dropWhile isInlineSpacing) = .error stuck) : readValues cs = ([], cs) := by
  rw [readValues]
  split
  · split
    · rename_i e
      rw [h] at e
      cases e
    · rfl
  · rfl

/-- A run of integers is read to its end if only blanks follow. -/
lemma readValues_append {zs : List Int} {cs ws : List Char} (run : IntegerRun zs cs)
    (blank : ∀ c ∈ ws, isInlineSpacing c = true) :
    ∃ vs : List Value, vs.map Value.number = zs ∧ readValues (cs ++ ws) = (vs, ws) := by
  induction run with
  | nil =>
    have none : readValue (ws.dropWhile isInlineSpacing) = .error [] := by
      rw [List.dropWhile_eq_nil_iff.mpr blank]
      rfl
    exact ⟨[], rfl, readValues_of_error none⟩
  | @cons z zs gap t cs isGap integer run ih =>
    obtain ⟨vs, numbers, h⟩ := ih
    obtain ⟨v, rfl, read⟩ := readValue_append integer (run.stops blank)
    have whole : gap ++ t ++ cs ++ ws = gap ++ (t ++ (cs ++ ws)) := by simp
    obtain ⟨first, rest⟩ := gap_append isGap (integer.stops.append integer.ne_nil (cs ++ ws))
    rw [← rest] at read
    refine ⟨v :: vs, congrArg (v.number :: ·) numbers, ?_⟩
    rw [whole, readValues_of_ok first read, h]

/-- What is read of a run of integers stands at the front of the text. -/
lemma exists_of_readValues (cs : List Char) :
    ∃ run, IntegerRun ((readValues cs).1.map Value.number) run ∧ cs = run ++ (readValues cs).2 := by
  induction cs using readValues.induct with
  | case1 cs blank v rest h vs stuck rec ih =>
    obtain ⟨run, integers, whole⟩ := ih
    obtain ⟨ws, gap, front⟩ := exists_gap blank
    obtain ⟨t, integer, e⟩ := exists_of_readValue h
    rw [readValues_of_ok blank h]
    refine ⟨ws ++ t ++ run, .cons gap integer integers, ?_⟩
    calc cs = ws ++ (t ++ rest) := by rw [← e, ← front]
      _ = ws ++ (t ++ (run ++ (readValues rest).2)) := by rw [← whole]
      _ = ws ++ t ++ run ++ (readValues rest).2 := by simp
  | case2 cs blank stuck h =>
    rw [readValues_of_error h]
    exact ⟨[], .nil, rfl⟩
  | case3 cs sharp =>
    rw [readValues, if_neg sharp]
    exact ⟨[], .nil, rfl⟩

/-- The part behind the letter is read if there is an integer and nothing but blanks is left over. -/
lemma readBody_eq_ok_iff {cs : List Char} {vs : List Value} :
    readBody cs = .ok vs ↔ vs ≠ [] ∧ (readValues cs).1 = vs ∧
      ∀ c ∈ (readValues cs).2, isInlineSpacing c = true := by
  rw [← List.dropWhile_eq_nil_iff, readBody]
  by_cases blank : cs.head?.any isInlineSpacing = true
  · rw [if_pos blank]
    cases h : readValue (cs.dropWhile isInlineSpacing) with
    | error stuck =>
      rw [readValues_of_error h]
      exact ⟨nofun, fun ⟨ne, e, _⟩ => absurd e.symm ne⟩
    | ok vr =>
      rw [readValues_of_ok blank h]
      dsimp only
      split
      · rename_i left
        rw [Except.ok.injEq]
        exact ⟨fun e => ⟨e ▸ nofun, e, left⟩, fun e => e.2.1⟩
      · rename_i left
        exact ⟨nofun, fun e => absurd e.2.2 left⟩
  · rw [if_neg blank, readValues, if_neg blank]
    exact ⟨nofun, fun ⟨ne, e, _⟩ => absurd e.symm ne⟩

/-- A value line of the grammar is read, also with blanks behind it. -/
lemma exists_read_append {zs : List Int} {line ws : List Char} (text : LineText zs line)
    (blank : ∀ c ∈ ws, isInlineSpacing c = true) :
    ∃ vs : List Value, vs.map Value.number = zs ∧ read (line ++ ws) = .ok vs := by
  cases text with
  | @mk z zs cs run =>
    obtain ⟨vs, numbers, h⟩ := readValues_append run blank
    refine ⟨vs, numbers, ?_⟩
    show readBody (cs ++ ws) = .ok vs
    rw [readBody_eq_ok_iff, h]
    refine ⟨?_, rfl, blank⟩
    rintro rfl
    cases numbers

/-- A line is read exactly if it is a value line of the grammar with blanks behind it. -/
lemma read_eq_ok_iff {cs : List Char} {vs : List Value} :
    read cs = .ok vs ↔ ∃ line ws, LineText (vs.map Value.number) line ∧
      (∀ c ∈ ws, isInlineSpacing c = true) ∧ cs = line ++ ws := by
  constructor
  · intro h
    unfold read at h
    split at h
    · rename_i cs
      obtain ⟨ne, rfl, blank⟩ := readBody_eq_ok_iff.mp h
      obtain ⟨run, integers, whole⟩ := exists_of_readValues cs
      obtain ⟨v, vs, e⟩ := List.exists_cons_of_ne_nil ne
      rw [e] at integers ⊢
      exact ⟨'v' :: run, _, .mk integers, blank, congrArg ('v' :: ·) whole⟩
    · cases h
  · rintro ⟨line, ws, text, blank, rfl⟩
    obtain ⟨vs', numbers, h⟩ := exists_read_append text blank
    rwa [(List.map_inj_right fun _ _ => @Value.number_injective _ _).mp numbers] at h

end ExactCover.ValueLine
