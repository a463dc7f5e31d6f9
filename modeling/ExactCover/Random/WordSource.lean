/-!
# Sources of random words

A source is a state that yields words of 32 and 64 bits, each time with the state that follows.
-/

namespace ExactCover.Random

/-- The states of a source of random words. -/
class WordSource (σ : Type) where
  /-- The next word of 32 bits. -/
  next32 : σ → UInt32 × σ
  /-- The next word of 64 bits. -/
  next64 : σ → UInt64 × σ

end ExactCover.Random
