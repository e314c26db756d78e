/-!
# SHA-256

The digest by which an export records the content of a file: the message is padded to blocks of 64
bytes, each block is expanded to 64 words and mixed into eight words of state.
-/

namespace Scaffold.Digest

/-- The round constants: the first 32 bits of the fractions of the cube roots of 64 primes. -/
def roundConstants : List UInt32 :=
  [0x428a2f98, 0x71374491, 0xb5c0fbcf, 0xe9b5dba5, 0x3956c25b, 0x59f111f1, 0x923f82a4, 0xab1c5ed5,
    0xd807aa98, 0x12835b01, 0x243185be, 0x550c7dc3, 0x72be5d74, 0x80deb1fe, 0x9bdc06a7, 0xc19bf174,
    0xe49b69c1, 0xefbe4786, 0x0fc19dc6, 0x240ca1cc, 0x2de92c6f, 0x4a7484aa, 0x5cb0a9dc, 0x76f988da,
    0x983e5152, 0xa831c66d, 0xb00327c8, 0xbf597fc7, 0xc6e00bf3, 0xd5a79147, 0x06ca6351, 0x14292967,
    0x27b70a85, 0x2e1b2138, 0x4d2c6dfc, 0x53380d13, 0x650a7354, 0x766a0abb, 0x81c2c92e, 0x92722c85,
    0xa2bfe8a1, 0xa81a664b, 0xc24b8b70, 0xc76c51a3, 0xd192e819, 0xd6990624, 0xf40e3585, 0x106aa070,
    0x19a4c116, 0x1e376c08, 0x2748774c, 0x34b0bcb5, 0x391c0cb3, 0x4ed8aa4a, 0x5b9cca4f, 0x682e6ff3,
    0x748f82ee, 0x78a5636f, 0x84c87814, 0x8cc70208, 0x90befffa, 0xa4506ceb, 0xbef9a3f7, 0xc67178f2]

/-- The eight words of state. -/
structure State where
  a : UInt32
  b : UInt32
  c : UInt32
  d : UInt32
  e : UInt32
  f : UInt32
  g : UInt32
  h : UInt32

/-- The state before the first block: fractions of the square roots of eight primes. -/
def State.initial : State :=
  ⟨0x6a09e667, 0xbb67ae85, 0x3c6ef372, 0xa54ff53a, 0x510e527f, 0x9b05688c, 0x1f83d9ab, 0x5be0cd19⟩

/-- Wordwise sum of two states. -/
def State.add (x y : State) : State :=
  ⟨x.a + y.a, x.b + y.b, x.c + y.c, x.d + y.d, x.e + y.e, x.f + y.f, x.g + y.g, x.h + y.h⟩

/-- Rotate a word to the right. -/
def rotateRight (word count : UInt32) : UInt32 :=
  (word >>> count) ||| (word <<< (32 - count))

/-- One round with a word of the message schedule and a round constant. -/
def State.round (s : State) (word constant : UInt32) : State :=
  let sum1 := rotateRight s.e 6 ^^^ rotateRight s.e 11 ^^^ rotateRight s.e 25
  let choice := (s.e &&& s.f) ^^^ ((~~~ s.e) &&& s.g)
  let first := s.h + sum1 + choice + constant + word
  let sum0 := rotateRight s.a 2 ^^^ rotateRight s.a 13 ^^^ rotateRight s.a 22
  let majority := (s.a &&& s.b) ^^^ (s.a &&& s.c) ^^^ (s.b &&& s.c)
  ⟨first + (sum0 + majority), s.a, s.b, s.c, s.d + first, s.e, s.f, s.g⟩

/-- A word of four bytes, the first byte highest. -/
def wordOfBytes (w x y z : UInt8) : UInt32 :=
  w.toUInt32 <<< 24 ||| x.toUInt32 <<< 16 ||| y.toUInt32 <<< 8 ||| z.toUInt32

/-- The words of a block; bytes that fill no word are dropped. -/
def wordsOfBytes : List UInt8 → List UInt32
  | w :: x :: y :: z :: rest => wordOfBytes w x y z :: wordsOfBytes rest
  | _ => []

/--
The next word of the message schedule, from the last 16 words with the latest first, and those 16
words moved on by one.
-/
def nextScheduleWord (window : List UInt32) : UInt32 × List UInt32 :=
  let earlier := fun index => window.getD index 0
  let near := earlier 1
  let far := earlier 14
  let s1 := rotateRight near 17 ^^^ rotateRight near 19 ^^^ (near >>> 10)
  let s0 := rotateRight far 7 ^^^ rotateRight far 18 ^^^ (far >>> 3)
  let word := s1 + earlier 6 + s0 + earlier 15
  (word, word :: window.take 15)

/-- The words of the message schedule after the first 16. -/
def scheduleTail : Nat → List UInt32 → List UInt32
  | 0, _ => []
  | count + 1, window =>
      let (word, moved) := nextScheduleWord window
      word :: scheduleTail count moved

/-- Mix one block into the state. -/
def State.absorb (state : State) (block : List UInt8) : State :=
  let head := wordsOfBytes block
  let schedule := head ++ scheduleTail 48 head.reverse
  state.add ((schedule.zip roundConstants).foldl (fun s pair => s.round pair.1 pair.2) state)

/-- Mix `count` blocks into the state. -/
def State.absorbBlocks (state : State) : Nat → List UInt8 → State
  | 0, _ => state
  | count + 1, bytes => (state.absorb (bytes.take 64)).absorbBlocks count (bytes.drop 64)

/-- The eight bytes of a message length in bits. -/
def lengthBytes (bits : Nat) : List UInt8 :=
  (List.range 8).map fun index => UInt8.ofNat (bits >>> (8 * (7 - index)))

/-- A message with its padding: a one bit, zeros, and the length. -/
def padded (message : List UInt8) : List UInt8 :=
  let zeros := (119 - message.length % 64) % 64
  message ++ 0x80 :: (List.replicate zeros 0 ++ lengthBytes (8 * message.length))

/-- The words of a state, first to last. -/
def State.words (s : State) : List UInt32 :=
  [s.a, s.b, s.c, s.d, s.e, s.f, s.g, s.h]

/-- Eight hexadecimal digits of a word. -/
def hexWord (word : UInt32) : List Char :=
  let digits := Nat.toDigits 16 word.toNat
  List.replicate (8 - digits.length) '0' ++ digits

/-- The digest of a message in hexadecimal digits. -/
def sha256 (message : List UInt8) : String :=
  let bytes := padded message
  let state := State.initial.absorbBlocks (bytes.length / 64) bytes
  String.ofList (state.words.map hexWord).flatten

/-- The digest of the UTF-8 bytes of a text. -/
def sha256Text (text : String) : String :=
  sha256 text.toUTF8.toList

end Scaffold.Digest
