import ExactCover.Random.WordSource

/-!
# The SplitMix64 generator

A counter that grows by the odd number nearest to 2⁶⁴ divided by the golden ratio, and a mixing of
its bits. A `Replay` yields given words first and goes on with the generator.
-/

namespace ExactCover.Random

/-- The state of the generator: its counter. -/
structure SplitMix where
  state : UInt64
  deriving DecidableEq, Repr

/-- The next word. -/
def SplitMix.next (s : SplitMix) : UInt64 × SplitMix :=
  let state := s.state + 0x9e3779b97f4a7c15
  let z := (state ^^^ (state >>> 30)) * 0xbf58476d1ce4e5b9
  let z := (z ^^^ (z >>> 27)) * 0x94d049bb133111eb
  (z ^^^ (z >>> 31), ⟨state⟩)

/-- Given words, and the generator that follows them. -/
structure Replay where
  words : List UInt64
  after : SplitMix
  deriving DecidableEq, Repr

/-- The next word. -/
def Replay.next (s : Replay) : UInt64 × Replay :=
  match s.words with
  | w :: ws => (w, { s with words := ws })
  | [] =>
    let (w, after) := s.after.next
    (w, { s with after })

/-- A word of 32 bits is the low half of a whole word. -/
instance : WordSource Replay where
  next32 s :=
    let (w, s') := s.next
    (w.toUInt32, s')
  next64 := Replay.next

end ExactCover.Random
