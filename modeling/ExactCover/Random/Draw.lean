import ExactCover.Random.WordSource

/-!
# Uniform draws

A draw takes words from a source until one of them settles a value. A number below `range` is the
high half of the product of a word and `range`; words whose low half would favour some numbers are
rejected. A source could yield rejected words for ever, so every draw has a limit on the words that
it may take, its patience, and has no value when it runs out.
-/

namespace ExactCover.Random

/-- A computation that takes words from a source and may run out of patience. -/
abbrev Draw (σ α : Type) := StateT σ Option α

/-- The number below `range` that a word of the given width settles. Of the possible low halves of
the product the first `range * 2 ^ z` are accepted, for the greatest `z` that fits the width. -/
def scale? (width range word : Nat) : Option Nat :=
  let product := word * range
  if product % (1 <<< width) < range <<< (width - 1 - range.log2) then
    some (product >>> width)
  else
    none

/-- Tries until an attempt has a value, at most `patience` times. -/
def retry {σ α : Type} (attempt : σ → Option α × σ) : (patience : Nat) → Draw σ α
  | 0, _ => none
  | patience + 1, s =>
    match attempt s with
    | (some a, s') => some (a, s')
    | (none, s') => retry attempt patience s'

variable {σ : Type} [WordSource σ] (patience : Nat)

/-- A number below `range`, from words of 32 bits. -/
def below32 (range : Nat) : Draw σ Nat :=
  retry (fun s =>
    let (word, s') := WordSource.next32 s
    (scale? 32 range word.toNat, s')) patience

/-- A number below `range`, from words of 64 bits. -/
def below64 (range : Nat) : Draw σ Nat :=
  retry (fun s =>
    let (word, s') := WordSource.next64 s
    (scale? 64 range word.toNat, s')) patience

/-- A place in a list of the given length, from the narrowest words that can tell all places. -/
def place (length : Nat) : Draw σ Nat :=
  if length < 1 <<< 32 then below32 patience length else below64 patience length

/-- Swaps each of the places `i, …, 1` in turn with one not after it. -/
def shuffleFrom {α : Type} : (i : Nat) → Array α → Draw σ (Array α)
  | 0, xs => pure xs
  | i + 1, xs => do
    let j ← place patience (i + 2)
    shuffleFrom i (xs.swapIfInBounds (i + 1) j)

/-- A uniformly drawn rearrangement. -/
def shuffle {α : Type} (xs : Array α) : Draw σ (Array α) :=
  shuffleFrom patience (xs.size - 1) xs

/-- What a word settles lies below the range. -/
theorem lt_of_scale? {width range word n : Nat} (hw : word < 1 <<< width)
    (h : scale? width range word = some n) : n < range := by
  simp only [scale?, Option.ite_none_right_eq_some, Option.some.injEq] at h
  rw [Nat.one_shiftLeft] at hw
  rw [← h.2, Nat.shiftRight_eq_div_pow, Nat.div_lt_iff_lt_mul (Nat.two_pow_pos width),
    Nat.mul_comm range]
  rcases Nat.eq_zero_or_pos range with rfl | hr
  · simp at h
  · exact Nat.mul_lt_mul_of_pos_right hw hr

end ExactCover.Random
