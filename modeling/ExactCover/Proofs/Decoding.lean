import ExactCover.Proofs.LineByLine
import ExactCover.Text.Utf8
import Mathlib.Algebra.Group.Nat.Defs

/-!
# Decoding row by row

Bytes that are decoded leniently can be decoded row by row, in between the bytes that are line feeds
(`splitOn_decodeFrom`). No character reaches over a line feed, since a byte below 0x80 completes no
character: it ends one that is not complete, and is then read for itself. And nothing else is
decoded to a line feed, or to any other character below 0x80, than the byte that is its code.

The last point needs that the bytes of a longer character make up a number of at least 0x80. This is
an invariant of the decoder (`State.Sound`): inside a character, all numbers that the missing bytes
can still lead to are codes of such characters. Each byte that is accepted only narrows their range.
-/

namespace ExactCover.Text.Utf8

/-- The byte of a line feed. -/
def feed : UInt8 := 0x0a

/-- The least number that the missing bytes can lead to. -/
def least (missing bits : Nat) (lo : UInt8) : Nat :=
  (bits * 64 + (lo.toNat - 0x80)) * 64 ^ missing

/-- The number behind the greatest that the missing bytes can lead to. -/
def beyond (missing bits : Nat) (hi : UInt8) : Nat :=
  (bits * 64 + (hi.toNat - 0x80) + 1) * 64 ^ missing

/-- Whatever bytes complete the character, its code is one of a character and not below 0x80. -/
def State.Sound : State → Prop
  | .boundary => True
  | .inside missing lo hi bits =>
    0x80 ≤ lo.toNat ∧
      ∀ n, least missing bits lo ≤ n → n < beyond missing bits hi → n.isValidChar ∧ 0x80 ≤ n

/-- What a byte does at a character boundary. -/
inductive Begins (b : UInt8) : State × List Char → Prop where
  | plain :
    b.toNat < 0x80 →
    Begins b (.boundary, [Char.ofNat b.toNat])
  | invalid :
    0x80 ≤ b.toNat →
    Begins b (.boundary, [replacement])
  | opens {missing lo hi bits} :
    0x80 ≤ b.toNat →
    (State.inside missing lo hi bits).Sound →
    Begins b (.inside missing lo hi bits, [])

/-- What a byte does inside a character. -/
inductive Continues (b : UInt8) : State × List Char → Prop where
  | completes {n} :
    n.isValidChar → 0x80 ≤ n →
    Continues b (.boundary, [Char.ofNat n])
  | narrows {missing lo hi bits} :
    (State.inside missing lo hi bits).Sound →
    Continues b (.inside missing lo hi bits, [])
  | refused :
    Continues b ((lead b).1, replacement :: (lead b).2)

variable {s : State} {b : UInt8} {c : Char} {row rest : List UInt8} {missing bits : Nat}
  {lo hi : UInt8}

/-! ## Bytes -/

/-- A range above 0x80 and without surrogates is sound. -/
lemma State.sound_inside (continues : 0x80 ≤ lo.toNat) (above : 0x80 ≤ least missing bits lo)
    (scalar : beyond missing bits hi ≤ 0xd800 ∨
      0xe000 ≤ least missing bits lo ∧ beyond missing bits hi ≤ 0x110000) :
    (State.inside missing lo hi bits).Sound := by
  refine ⟨continues, fun n lower upper => ⟨?_, by omega⟩⟩
  simp only [Nat.isValidChar]
  omega

/-- A byte at a boundary stands for itself, is invalid or opens a character. -/
lemma begins_lead (b : UInt8) : Begins b (lead b) := by
  have byte := b.toNat_lt
  unfold lead
  simp only [UInt8.lt_iff_toNat_lt, ← UInt8.toNat_inj, UInt8.reduceToNat]
  split
  case isTrue single => exact .plain single
  split
  case isTrue => exact .invalid (by omega)
  split
  case isTrue =>
    refine .opens (by omega) (State.sound_inside (by decide) ?_ ?_) <;>
      simp [least, beyond] <;> omega
  -- a first byte with a range of its own for the second byte stands apart from the others
  split
  case isTrue =>
    refine .opens (by omega) (State.sound_inside ?_ ?_ ?_)
    · split <;> decide
    · split <;> simp [least] <;> omega
    · split <;> split <;> simp [least, beyond] <;> omega
  split
  case isTrue =>
    refine .opens (by omega) (State.sound_inside ?_ ?_ ?_)
    · split <;> decide
    · split <;> simp [least] <;> omega
    · split <;> split <;> simp [least, beyond] <;> omega
  case isFalse => exact .invalid (by omega)

/-- A byte that is accepted narrows the range. -/
lemma least_le_of_step (lower : lo.toNat ≤ b.toNat) :
    least (missing + 1) bits lo ≤ least missing (bits * 64 + (b.toNat - 0x80)) 0x80 := by
  have lowest : (0x80 : UInt8).toNat - 0x80 = 0 := rfl
  rw [least, least, lowest, Nat.add_zero, Nat.pow_succ', ← Nat.mul_assoc]
  refine Nat.mul_le_mul_right _ ?_
  omega

/-- A byte that is accepted narrows the range from above as well. -/
lemma beyond_le_of_step (upper : b.toNat ≤ hi.toNat) :
    beyond missing (bits * 64 + (b.toNat - 0x80)) 0xbf ≤ beyond (missing + 1) bits hi := by
  have highest : (0xbf : UInt8).toNat - 0x80 = 63 := rfl
  rw [beyond, beyond, highest, Nat.pow_succ', ← Nat.mul_assoc]
  refine Nat.mul_le_mul_right _ ?_
  omega

/-- A byte inside a character completes it, narrows the range or is refused. -/
lemma continues_step (sound : (State.inside missing lo hi bits).Sound) (b : UInt8) :
    Continues b (step (.inside missing lo hi bits) b) := by
  obtain ⟨_, codes⟩ := sound
  rw [step]
  split
  case isTrue accepted =>
    have lower := UInt8.le_iff_toNat_le.mp accepted.1
    have upper := UInt8.le_iff_toNat_le.mp accepted.2
    cases missing with
    | zero =>
      obtain ⟨valid, above⟩ := codes (bits * 64 + (b.toNat - 0x80))
        (by rw [least, Nat.pow_zero]; omega) (by rw [beyond, Nat.pow_zero]; omega)
      exact .completes valid above
    | succ missing =>
      refine .narrows ⟨by decide, fun n lower' upper' => codes n ?_ ?_⟩
      · exact (least_le_of_step lower).trans lower'
      · exact upper'.trans_le (beyond_le_of_step upper)
  case isFalse => exact .refused

/-- After the first byte of a character the decoder is sound. -/
lemma sound_lead (b : UInt8) : (lead b).1.Sound := by
  have read := begins_lead b
  generalize lead b = r at read ⊢
  cases read with
  | plain => trivial
  | invalid => trivial
  | opens _ sound => exact sound

/-- Every byte keeps the decoder sound. -/
lemma sound_step (sound : s.Sound) (b : UInt8) : (step s b).1.Sound := by
  cases s with
  | boundary => exact sound_lead b
  | inside missing lo hi bits =>
    have read := continues_step sound b
    generalize step (.inside missing lo hi bits) b = r at read ⊢
    cases read with
    | completes => trivial
    | narrows sound => exact sound
    | refused => exact sound_lead b

/-- A line feed completes no character. -/
lemma step_feed (sound : s.Sound) : step s feed = (.boundary, finish s ++ ['\n']) := by
  cases s with
  | boundary => rfl
  | inside missing lo hi bits =>
    have refused : ¬(lo ≤ feed ∧ feed ≤ hi) := by
      rintro ⟨lower, _⟩
      have := sound.1.trans (UInt8.le_iff_toNat_le.mp lower)
      exact absurd this (by decide)
    rw [step, if_neg refused]
    rfl

/-! ## Characters below 0x80 -/

/-- The character with a valid code has this code. -/
lemma toNat_ofNat {n : Nat} (valid : n.isValidChar) : (Char.ofNat n).toNat = n := by
  rw [Char.ofNat, dif_pos valid]
  rfl

/-- The replacement character is not below 0x80. -/
lemma not_mem_replacement (plain : c.toNat < 0x80) : c ∉ [replacement] := by
  intro h
  rw [List.mem_singleton.mp h] at plain
  exact absurd plain (by decide)

/-- A character below 0x80 that a byte at a boundary yields has the byte as its code. -/
lemma toNat_of_mem_lead (h : c ∈ (lead b).2) (plain : c.toNat < 0x80) : c.toNat = b.toNat := by
  have read := begins_lead b
  generalize lead b = r at read h
  cases read with
  | plain code =>
    rw [List.mem_singleton.mp h, toNat_ofNat (.inl (code.trans (by decide)))]
  | invalid => exact absurd h (not_mem_replacement plain)
  | opens => cases h

/-- A character below 0x80 is written for the byte that is its code, and for no other. -/
lemma toNat_of_mem_step (sound : s.Sound) (h : c ∈ (step s b).2) (plain : c.toNat < 0x80) :
    c.toNat = b.toNat := by
  cases s with
  | boundary => exact toNat_of_mem_lead h plain
  | inside missing lo hi bits =>
    have read := continues_step sound b
    generalize step (.inside missing lo hi bits) b = r at read h
    cases read with
    | completes valid above =>
      rw [List.mem_singleton.mp h, toNat_ofNat valid] at plain
      omega
    | narrows => cases h
    | refused =>
      rcases List.mem_cons.mp h with rfl | h
      · exact absurd (List.mem_singleton_self _) (not_mem_replacement plain)
      · exact toNat_of_mem_lead h plain

/-! ## Texts -/

/-- At the end only an open character is left to be replaced. -/
lemma decodeFrom_nil (s : State) : decodeFrom s [] = finish s :=
  rfl

/-- A byte goes into the state and what was written before it. -/
def accept (read : State × Array Char) (b : UInt8) : State × Array Char :=
  ((step read.1 b).1, read.2 ++ (step read.1 b).2.toArray)

/-- Decoding goes byte by byte and then finishes. -/
lemma decodeFrom_eq (s : State) (bytes : List UInt8) :
    decodeFrom s bytes = (bytes.foldl accept (s, #[])).2.toList ++
      finish (bytes.foldl accept (s, #[])).1 :=
  rfl

/-- What was written before stays in front. -/
lemma foldl_accept (s : State) (written : Array Char) (bytes : List UInt8) :
    (bytes.foldl accept (s, written)).2.toList ++ finish (bytes.foldl accept (s, written)).1 =
      written.toList ++ decodeFrom s bytes := by
  induction bytes generalizing s written with
  | nil => simp [decodeFrom_nil]
  | cons b bytes ih =>
    rw [List.foldl_cons, accept, ih, decodeFrom_eq s, List.foldl_cons, accept, ih]
    simp

/-- The first byte is decoded, and the others from the state that it leads to. -/
lemma decodeFrom_cons (s : State) (b : UInt8) (bytes : List UInt8) :
    decodeFrom s (b :: bytes) = (step s b).2 ++ decodeFrom (step s b).1 bytes := by
  rw [decodeFrom_eq, List.foldl_cons, accept, foldl_accept]
  simp

/-- Up to a line feed the bytes are decoded by themselves. -/
lemma decodeFrom_append (sound : s.Sound) (row rest : List UInt8) :
    decodeFrom s (row ++ feed :: rest) =
      decodeFrom s row ++ '\n' :: decodeFrom .boundary rest := by
  induction row generalizing s with
  | nil =>
    rw [List.nil_append, decodeFrom_cons, step_feed sound, List.append_assoc]
    rfl
  | cons b row ih =>
    rw [List.cons_append, decodeFrom_cons, decodeFrom_cons, ih (sound_step sound b),
      List.append_assoc]

/-- The end yields no character below 0x80. -/
lemma not_mem_finish (plain : c.toNat < 0x80) (s : State) : c ∉ finish s := by
  cases s with
  | boundary => exact List.not_mem_nil
  | inside => exact not_mem_replacement plain

/-- Where a character below 0x80 is written, its code is among the bytes. -/
lemma exists_of_mem_decodeFrom (sound : s.Sound) (h : c ∈ decodeFrom s row)
    (plain : c.toNat < 0x80) : ∃ b ∈ row, b.toNat = c.toNat := by
  induction row generalizing s with
  | nil => exact absurd h (not_mem_finish plain s)
  | cons b row ih =>
    rw [decodeFrom_cons] at h
    rcases List.mem_append.mp h with h | h
    · exact ⟨b, List.mem_cons_self, (toNat_of_mem_step sound h plain).symm⟩
    · obtain ⟨b', hb, code⟩ := ih (sound_step sound b) h
      exact ⟨b', List.mem_cons_of_mem b hb, code⟩

/-- A row without the byte of a line feed decodes to no line feed. -/
lemma not_mem_decodeFrom (fresh : feed ∉ row) : '\n' ∉ decodeFrom .boundary row := by
  intro h
  have sound : State.boundary.Sound := trivial
  obtain ⟨b, hb, code⟩ := exists_of_mem_decodeFrom sound h (by decide)
  rw [UInt8.toNat_inj.mp (code.trans (show _ = feed.toNat from rfl))] at hb
  exact fresh hb

/-- What is read from inside a character does not begin with a character below 0x80. -/
lemma le_toNat_of_head? (sound : (State.inside missing lo hi bits).Sound)
    (h : (decodeFrom (.inside missing lo hi bits) row).head? = some c) : 0x80 ≤ c.toNat := by
  induction row generalizing missing lo hi bits with
  | nil =>
    cases h
    decide
  | cons b row ih =>
    rw [decodeFrom_cons] at h
    have read := continues_step sound b
    generalize step (.inside missing lo hi bits) b = r at read h
    cases read with
    | completes valid above =>
      cases h
      rwa [toNat_ofNat valid]
    | narrows sound => exact ih sound h
    | refused =>
      cases h
      decide

/-- A row begins with a character below 0x80 exactly if its bytes begin with the code of it. -/
lemma head?_decodeFrom (row : List UInt8) (plain : c.toNat < 0x80) :
    (decodeFrom .boundary row).head? = some c ↔ row.head?.map UInt8.toNat = some c.toNat := by
  cases row with
  | nil => exact ⟨nofun, nofun⟩
  | cons b row =>
    have first : decodeFrom .boundary (b :: row) = (lead b).2 ++ decodeFrom (lead b).1 row :=
      decodeFrom_cons .boundary b row
    have read := begins_lead b
    rw [first, List.head?_cons, Option.map_some, Option.some_inj]
    generalize lead b = r at read
    cases read with
    | plain below =>
      rw [List.singleton_append, List.head?_cons, Option.some_inj, ← Char.toNat_inj,
        toNat_ofNat (.inl (below.trans (by decide)))]
    | invalid above =>
      constructor
      · intro h
        cases h
        exact absurd (List.mem_singleton_self _) (not_mem_replacement plain)
      · omega
    | opens above sound =>
      constructor
      · intro h
        exact absurd plain (Nat.not_lt.mpr (le_toNat_of_head? sound h))
      · omega

/-- The lines of the text are the rows of the bytes, each decoded by itself. -/
lemma splitOn_decodeFrom (bytes : List UInt8) :
    (decodeFrom .boundary bytes).splitOn '\n' =
      (bytes.splitOn feed).map (decodeFrom .boundary) := by
  have sound : State.boundary.Sound := trivial
  induction bytes using rowInduction feed with
  | last row fresh =>
    rw [List.splitOn_eq_singleton fresh, List.splitOn_eq_singleton (not_mem_decodeFrom fresh)]
    rfl
  | append row rest fresh ih =>
    rw [decodeFrom_append sound, List.splitOn_append_cons_self_of_not_mem fresh,
      List.splitOn_append_cons_self_of_not_mem (not_mem_decodeFrom fresh), ih, List.map_cons]

end ExactCover.Text.Utf8
