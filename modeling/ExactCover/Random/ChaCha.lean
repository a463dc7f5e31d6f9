import ExactCover.Random.WordSource

/-!
# The ChaCha12 generator

The key stream of the ChaCha cipher with twelve rounds, taken as random words. The state of a block
is four constants, eight words of key, a block counter of two words and two zero words. A block is
the state after the rounds plus the state before them, word by word, and the stream is the blocks of
the counters 0, 1, 2, ….
-/

namespace ExactCover.Random.ChaCha

/-- The sixteen words of a block. -/
abbrev Block := Vector UInt32 16

/-- The eight words of a key. -/
abbrev Key := Vector UInt32 8

/-- The word turned left by `n` bits, for `0 < n < 32`. -/
def rotateLeft (w n : UInt32) : UInt32 :=
  (w <<< n) ||| (w >>> (32 - n))

/-- The quarter round on four words of the state. -/
def quarterRound (s : Block) (a b c d : Fin 16) : Block :=
  let s := s.set a (s[a] + s[b])
  let s := s.set d (rotateLeft (s[d] ^^^ s[a]) 16)
  let s := s.set c (s[c] + s[d])
  let s := s.set b (rotateLeft (s[b] ^^^ s[c]) 12)
  let s := s.set a (s[a] + s[b])
  let s := s.set d (rotateLeft (s[d] ^^^ s[a]) 8)
  let s := s.set c (s[c] + s[d])
  s.set b (rotateLeft (s[b] ^^^ s[c]) 7)

/-- Two rounds: the quarter round on the four columns, then on the four diagonals. -/
def doubleRound (s : Block) : Block :=
  let s := quarterRound s 0 4 8 12
  let s := quarterRound s 1 5 9 13
  let s := quarterRound s 2 6 10 14
  let s := quarterRound s 3 7 11 15
  let s := quarterRound s 0 5 10 15
  let s := quarterRound s 1 6 11 12
  let s := quarterRound s 2 7 8 13
  quarterRound s 3 4 9 14

/-- The text "expand 32-byte k" as four words. -/
def constants : Vector UInt32 4 :=
  #v[0x61707865, 0x3320646e, 0x79622d32, 0x6b206574]

/-- The state before the rounds. -/
def initial (key : Key) (counter : UInt64) : Block :=
  constants ++ key ++ #v[counter.toUInt32, (counter >>> 32).toUInt32, 0, 0]

/-- The block of a counter. -/
def block (key : Key) (counter : UInt64) : Block :=
  let s := initial key counter
  let mixed := (List.range 6).foldl (fun s _ => doubleRound s) s
  mixed.zipWith (· + ·) s

/-- A place in the key stream: the words left of the current block, and the counter of the next. -/
structure Stream where
  key : Key
  counter : UInt64
  pending : List UInt32

namespace Stream

/-- The stream of a key from its start. -/
def ofKey (key : Key) : Stream :=
  ⟨key, 0, []⟩

/-- The next word. -/
def next (s : Stream) : UInt32 × Stream :=
  match s.pending with
  | w :: ws => (w, { s with pending := ws })
  | [] =>
    let b := block s.key s.counter
    (b[0], { s with counter := s.counter + 1, pending := b.toList.tail })

/-- One step of the counter that spreads a seed over a key, and the word of key that it gives: its
upper bits, folded and turned by an amount that its top bits give. -/
def seedStep (state : UInt64) : UInt32 × UInt64 :=
  let state := state * 6364136223846793005 + 11634580027462260723
  let folded := (((state >>> 18) ^^^ state) >>> 27).toUInt32
  let turn := (state >>> 59).toUInt32
  ((folded >>> turn) ||| (folded <<< ((32 - turn) % 32)), state)

/-- The words of key that a seed gives. -/
def seedWords (state : UInt64) : Nat → List UInt32
  | 0 => []
  | n + 1 =>
    let (w, state) := seedStep state
    w :: seedWords state n

/-- A seed gives as many words as are asked for. -/
theorem length_seedWords (state : UInt64) (n : Nat) : (seedWords state n).length = n := by
  induction n generalizing state with
  | zero => rfl
  | succ n ih => simp [seedWords, ih]

/-- The stream of a seed. -/
def ofSeed (seed : UInt64) : Stream :=
  ofKey ⟨(seedWords seed 8).toArray, by simp [length_seedWords]⟩

end Stream

/-- A word of 64 bits is two words of the stream, the low half first. -/
instance : WordSource Stream where
  next32 := Stream.next
  next64 s :=
    let (low, s) := s.next
    let (high, s) := s.next
    ((high.toUInt64 <<< 32) ||| low.toUInt64, s)

end ExactCover.Random.ChaCha
