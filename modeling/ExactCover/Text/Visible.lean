/-!
# Control characters made visible

In a log line the characters that can steer a terminal are written as escapes. All others, the other
control characters and the backslash among them, stand for themselves.
-/

namespace ExactCover.Text

/-- The ASCII characters that can steer a terminal: bell, backspace, form feed, escape, delete. -/
def steeringCodes : List Nat :=
  [0x7, 0x8, 0xc, 0x1b, 0x7f]

/-- A number below 256 in two hexadecimal digits. -/
def hexByte (n : Nat) : List Char :=
  [Nat.digitChar (n / 16), Nat.digitChar (n % 16)]

/-- A character as log lines show it: the C1 controls in braces, the steering ASCII characters as
bytes. -/
def visibleChar (c : Char) : List Char :=
  if c.toNat ∈ steeringCodes then '\\' :: 'x' :: hexByte c.toNat
  else if 0x80 ≤ c.toNat ∧ c.toNat ≤ 0x9f then
    '\\' :: 'u' :: '\x7b' :: (hexByte c.toNat ++ ['\x7d'])
  else [c]

/-- A text as log lines show it. -/
def visible (text : String) : String :=
  String.ofList (text.toList.flatMap visibleChar)

/-- A text without the characters that are escaped is shown as it is. -/
theorem visible_eq_self {text : String}
    (h : ∀ c ∈ text.toList, c.toNat ∉ steeringCodes ∧ ¬(0x80 ≤ c.toNat ∧ c.toNat ≤ 0x9f)) :
    visible text = text := by
  have single : ∀ c ∈ text.toList, visibleChar c = [c] := by
    intro c hc
    simp [visibleChar, (h c hc).1, (h c hc).2]
  rw [visible, List.flatMap_def, List.map_congr_left single, ← List.flatMap_def,
    List.flatMap_singleton', String.ofList_toList]

end ExactCover.Text
