/-!
# Slices by bytes

Positions in a text that count the bytes of its UTF-8 form. A position inside a character is none at
which the text can be cut: `dropBytes?_append` and `takeBytes?_append` say that the text can be cut
where a character begins.
-/

namespace ExactCover.Text

/-- The number of bytes of a text. -/
def byteLength : List Char → Nat
  | [] => 0
  | c :: cs => c.utf8Size + byteLength cs

/-- The text from a position on. -/
def dropBytes? : Nat → List Char → Option (List Char)
  | 0, cs => some cs
  | _ + 1, [] => none
  | n + 1, c :: cs => if c.utf8Size ≤ n + 1 then dropBytes? (n + 1 - c.utf8Size) cs else none

/-- The text up to a position. -/
def takeBytes? : Nat → List Char → Option (List Char)
  | 0, _ => some []
  | _ + 1, [] => none
  | n + 1, c :: cs =>
    if c.utf8Size ≤ n + 1 then (takeBytes? (n + 1 - c.utf8Size) cs).map (c :: ·) else none

/-- The text between two positions. -/
def slice? (start stop : Nat) (cs : List Char) : Option (List Char) :=
  (dropBytes? start cs).bind (takeBytes? (stop - start))

/-- Dropping the bytes of the front leaves what is behind it. -/
theorem dropBytes?_append (as bs : List Char) : dropBytes? (byteLength as) (as ++ bs) = some bs := by
  induction as with
  | nil => simp [byteLength, dropBytes?]
  | cons c cs ih =>
    have := c.utf8Size_pos
    obtain ⟨n, hn⟩ : ∃ n, byteLength (c :: cs) = n + 1 := ⟨byteLength (c :: cs) - 1, by
      simp only [byteLength]; omega⟩
    have rest : n + 1 - c.utf8Size = byteLength cs := by simp only [byteLength] at hn; omega
    have fits : c.utf8Size ≤ n + 1 := by simp only [byteLength] at hn; omega
    rw [hn, List.cons_append, dropBytes?, if_pos fits, rest, ih]

/-- The text up to the bytes of the front is the front. -/
theorem takeBytes?_append (as bs : List Char) : takeBytes? (byteLength as) (as ++ bs) = some as := by
  induction as with
  | nil => simp [byteLength, takeBytes?]
  | cons c cs ih =>
    have := c.utf8Size_pos
    obtain ⟨n, hn⟩ : ∃ n, byteLength (c :: cs) = n + 1 := ⟨byteLength (c :: cs) - 1, by
      simp only [byteLength]; omega⟩
    have rest : n + 1 - c.utf8Size = byteLength cs := by simp only [byteLength] at hn; omega
    have fits : c.utf8Size ≤ n + 1 := by simp only [byteLength] at hn; omega
    rw [hn, List.cons_append, takeBytes?, if_pos fits, rest, ih, Option.map_some]

end ExactCover.Text
