set_option autoImplicit false

namespace EdmQuery.Sha256

structure Words where
  a : UInt32
  b : UInt32
  c : UInt32
  d : UInt32
  e : UInt32
  f : UInt32
  g : UInt32
  h : UInt32
deriving DecidableEq, Repr

namespace Words

/-- The fractional parts of the square roots of the first eight primes. -/
def start : Words :=
  ⟨0x6a09e667, 0xbb67ae85, 0x3c6ef372, 0xa54ff53a, 0x510e527f, 0x9b05688c, 0x1f83d9ab, 0x5be0cd19⟩

def add (x y : Words) : Words :=
  ⟨x.a + y.a, x.b + y.b, x.c + y.c, x.d + y.d, x.e + y.e, x.f + y.f, x.g + y.g, x.h + y.h⟩

def toList (x : Words) : List UInt32 := [x.a, x.b, x.c, x.d, x.e, x.f, x.g, x.h]

end Words

/-- The fractional parts of the cube roots of the first sixty-four primes, one for each round. -/
def roundConstants : List UInt32 :=
  [0x428a2f98, 0x71374491, 0xb5c0fbcf, 0xe9b5dba5, 0x3956c25b, 0x59f111f1, 0x923f82a4, 0xab1c5ed5,
    0xd807aa98, 0x12835b01, 0x243185be, 0x550c7dc3, 0x72be5d74, 0x80deb1fe, 0x9bdc06a7, 0xc19bf174,
    0xe49b69c1, 0xefbe4786, 0x0fc19dc6, 0x240ca1cc, 0x2de92c6f, 0x4a7484aa, 0x5cb0a9dc, 0x76f988da,
    0x983e5152, 0xa831c66d, 0xb00327c8, 0xbf597fc7, 0xc6e00bf3, 0xd5a79147, 0x06ca6351, 0x14292967,
    0x27b70a85, 0x2e1b2138, 0x4d2c6dfc, 0x53380d13, 0x650a7354, 0x766a0abb, 0x81c2c92e, 0x92722c85,
    0xa2bfe8a1, 0xa81a664b, 0xc24b8b70, 0xc76c51a3, 0xd192e819, 0xd6990624, 0xf40e3585, 0x106aa070,
    0x19a4c116, 0x1e376c08, 0x2748774c, 0x34b0bcb5, 0x391c0cb3, 0x4ed8aa4a, 0x5b9cca4f, 0x682e6ff3,
    0x748f82ee, 0x78a5636f, 0x84c87814, 0x8cc70208, 0x90befffa, 0xa4506ceb, 0xbef9a3f7, 0xc67178f2]

def rotateRight (x count : UInt32) : UInt32 := (x >>> count) ||| (x <<< (32 - count))

/-- The word of the schedule that follows a window of sixteen. -/
def nextWord (window : List UInt32) : UInt32 :=
  let early := window.getD 1 0
  let late := window.getD 14 0
  let sigma0 := rotateRight early 7 ^^^ rotateRight early 18 ^^^ (early >>> 3)
  let sigma1 := rotateRight late 17 ^^^ rotateRight late 19 ^^^ (late >>> 10)
  window.getD 0 0 + sigma0 + window.getD 9 0 + sigma1

def mixRound (words : Words) (word constant : UInt32) : Words :=
  let sum1 := rotateRight words.e 6 ^^^ rotateRight words.e 11 ^^^ rotateRight words.e 25
  let choice := (words.e &&& words.f) ^^^ ((~~~ words.e) &&& words.g)
  let first := words.h + sum1 + choice + constant + word
  let sum0 := rotateRight words.a 2 ^^^ rotateRight words.a 13 ^^^ rotateRight words.a 22
  let majority := (words.a &&& words.b) ^^^ (words.a &&& words.c) ^^^ (words.b &&& words.c)
  ⟨first + (sum0 + majority), words.a, words.b, words.c, words.d + first, words.e, words.f,
    words.g⟩

/-- One round for each constant, with the window moved on by one word after each. -/
def mixRounds : List UInt32 → Words → List UInt32 → Words
  | [], words, _ => words
  | constant :: rest, words, window =>
    mixRounds rest (mixRound words (window.getD 0 0) constant)
      (window.drop 1 ++ [nextWord window])

/-- The words that bytes form in groups of four, the first byte highest. -/
def wordsOfBytes : List UInt8 → List UInt32
  | a :: b :: c :: d :: rest =>
    ((a.toUInt32 <<< 24) ||| (b.toUInt32 <<< 16) ||| (c.toUInt32 <<< 8) ||| d.toUInt32) ::
      wordsOfBytes rest
  | _ => []

/-- Mixes in as many blocks of sixteen words as are given. -/
def mixBlocks : Nat → Words → List UInt32 → Words
  | 0, words, _ => words
  | blocks + 1, words, message =>
    mixBlocks blocks (words.add (mixRounds roundConstants words (message.take 16)))
      (message.drop 16)

/-- A number as a given count of bytes, the highest first. -/
def bigEndian (value : Nat) : Nat → List UInt8
  | 0 => []
  | count + 1 => bigEndian (value / 256) count ++ [UInt8.ofNat (value % 256)]

/-- The message, one set bit, zeros, and the length of the message in bits. -/
def pad (message : List UInt8) : List UInt8 :=
  message ++ 0x80 :: List.replicate ((119 - message.length % 64) % 64) 0 ++
    bigEndian (message.length * 8) 8

def digest (message : List UInt8) : List UInt8 :=
  let words := wordsOfBytes (pad message)
  (mixBlocks (words.length / 16) Words.start words).toList.flatMap fun word =>
    bigEndian word.toNat 4

def hexDigit (value : Nat) : Char :=
  if value < 10 then Char.ofNat ('0'.toNat + value) else Char.ofNat ('a'.toNat + value - 10)

/-- The digest in lower-case hexadecimal digits. -/
def hexDigest (message : List UInt8) : String :=
  String.ofList ((digest message).flatMap fun byte =>
    [hexDigit (byte.toNat / 16), hexDigit (byte.toNat % 16)])

@[simp] theorem bigEndian_length (value count : Nat) : (bigEndian value count).length = count := by
  induction count generalizing value with
  | zero => rfl
  | succ count ih => simp only [bigEndian, List.length_append, ih, List.length_singleton]

/-- Padding fills the last block. -/
theorem pad_length (message : List UInt8) : (pad message).length % 64 = 0 := by
  simp only [pad, List.length_append, List.length_cons, List.length_replicate, bigEndian_length]
  omega

theorem digest_length (message : List UInt8) : (digest message).length = 32 := by
  simp only [digest, Words.toList, List.flatMap_cons, List.flatMap_nil, List.length_append,
    bigEndian_length, List.length_nil]

end EdmQuery.Sha256
