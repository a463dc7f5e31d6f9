/-!
# Lenient decoding of UTF-8

`decodeLossy` reads any bytes as text. Each longest run of bytes that begins a well-formed character
but does not complete it, and each byte that begins none, becomes one replacement character. The
decoder is a fold over the bytes: between two bytes it is either at a character boundary or inside a
character whose next byte must lie in a known range.
-/

namespace ExactCover.Text.Utf8

/-- U+FFFD, which stands for bytes that are no character. -/
def replacement : Char := '\uFFFD'

/-- Where the decoder stands between two bytes. -/
inductive State where
  /-- At a character boundary. -/
  | boundary
  /-- Inside a character: `missing + 1` bytes are missing, the next of them lies in `lo..hi`, and
  `bits` is what the bytes so far contribute. -/
  | inside (missing : Nat) (lo hi : UInt8) (bits : Nat)
  deriving DecidableEq, Repr

/-- The effect of a byte at a character boundary: the next state and what is written. The narrower
ranges of a second byte leave out overlong forms, surrogates and numbers above U+10FFFF. -/
def lead (b : UInt8) : State × List Char :=
  if b < 0x80 then (.boundary, [Char.ofNat b.toNat])
  else if b < 0xc2 then (.boundary, [replacement])
  else if b < 0xe0 then (.inside 0 0x80 0xbf (b.toNat - 0xc0), [])
  else if b < 0xf0 then
    let lo : UInt8 := if b = 0xe0 then 0xa0 else 0x80
    let hi : UInt8 := if b = 0xed then 0x9f else 0xbf
    (.inside 1 lo hi (b.toNat - 0xe0), [])
  else if b < 0xf5 then
    let lo : UInt8 := if b = 0xf0 then 0x90 else 0x80
    let hi : UInt8 := if b = 0xf4 then 0x8f else 0xbf
    (.inside 2 lo hi (b.toNat - 0xf0), [])
  else (.boundary, [replacement])

/-- The effect of a byte in any state. A byte that cannot continue a character ends it as invalid
and is then read afresh. -/
def step (s : State) (b : UInt8) : State × List Char :=
  match s with
  | .boundary => lead b
  | .inside missing lo hi bits =>
    if lo ≤ b ∧ b ≤ hi then
      let bits := bits * 64 + (b.toNat - 0x80)
      match missing with
      | 0 => (.boundary, [Char.ofNat bits])
      | more + 1 => (.inside more 0x80 0xbf bits, [])
    else
      let (s', written) := lead b
      (s', replacement :: written)

/-- What is written when the bytes end: a character left incomplete is invalid. -/
def finish : State → List Char
  | .boundary => []
  | .inside .. => [replacement]

/-- The characters of the bytes, from the given state on. -/
def decodeFrom (s : State) (bytes : List UInt8) : List Char :=
  let (s', written) := bytes.foldl
    (fun (s, written) b => let (s', cs) := step s b; (s', written ++ cs.toArray)) (s, #[])
  written.toList ++ finish s'

/-- The text of any bytes, with the replacement character for what is not well formed. -/
def decodeLossy (bytes : ByteArray) : String :=
  String.ofList (decodeFrom .boundary bytes.data.toList)

end ExactCover.Text.Utf8
