/-!
# SHA-256

The digest of a byte sequence: the padded message is cut into blocks of sixteen words, and each block
is mixed into a chaining state of eight words.
-/
namespace BoardRules.Digest

/-- The chaining state. -/
structure Registers where
  a : UInt32
  b : UInt32
  c : UInt32
  d : UInt32
  e : UInt32
  f : UInt32
  g : UInt32
  h : UInt32
  deriving DecidableEq, Repr

namespace Sha256

/-- The first 32 bits of the fractional parts of the square roots of the first eight primes. -/
def start : Registers :=
  ⟨0x6a09e667, 0xbb67ae85, 0x3c6ef372, 0xa54ff53a, 0x510e527f, 0x9b05688c, 0x1f83d9ab, 0x5be0cd19⟩

/-- The first 32 bits of the fractional parts of the cube roots of the first 64 primes. -/
def roundConstants : List UInt32 :=
  [0x428a2f98, 0x71374491, 0xb5c0fbcf, 0xe9b5dba5, 0x3956c25b, 0x59f111f1, 0x923f82a4, 0xab1c5ed5,
    0xd807aa98, 0x12835b01, 0x243185be, 0x550c7dc3, 0x72be5d74, 0x80deb1fe, 0x9bdc06a7, 0xc19bf174,
    0xe49b69c1, 0xefbe4786, 0x0fc19dc6, 0x240ca1cc, 0x2de92c6f, 0x4a7484aa, 0x5cb0a9dc, 0x76f988da,
    0x983e5152, 0xa831c66d, 0xb00327c8, 0xbf597fc7, 0xc6e00bf3, 0xd5a79147, 0x06ca6351, 0x14292967,
    0x27b70a85, 0x2e1b2138, 0x4d2c6dfc, 0x53380d13, 0x650a7354, 0x766a0abb, 0x81c2c92e, 0x92722c85,
    0xa2bfe8a1, 0xa81a664b, 0xc24b8b70, 0xc76c51a3, 0xd192e819, 0xd6990624, 0xf40e3585, 0x106aa070,
    0x19a4c116, 0x1e376c08, 0x2748774c, 0x34b0bcb5, 0x391c0cb3, 0x4ed8aa4a, 0x5b9cca4f, 0x682e6ff3,
    0x748f82ee, 0x78a5636f, 0x84c87814, 0x8cc70208, 0x90befffa, 0xa4506ceb, 0xbef9a3f7, 0xc67178f2]

/-! ## Words -/

def rotateRight (w : UInt32) (n : UInt32) : UInt32 := (w >>> n) ||| (w <<< (32 - n))

/-- Words are read from four bytes, the most significant first. -/
def wordsOfBytes : List UInt8 → List UInt32
  | a :: b :: c :: d :: rest =>
    ((a.toUInt32 <<< 24) ||| (b.toUInt32 <<< 16) ||| (c.toUInt32 <<< 8) ||| d.toUInt32) ::
      wordsOfBytes rest
  | _ => []

def wordBytes (w : UInt32) : List UInt8 :=
  [(w >>> 24).toUInt8, (w >>> 16).toUInt8, (w >>> 8).toUInt8, w.toUInt8]

/-! ## Compression -/

/-- The word that follows the sixteen latest words of a schedule. -/
def nextWord (window : List UInt32) : UInt32 :=
  let w (i : Nat) : UInt32 := window.getD i 0
  let small₀ := rotateRight (w 1) 7 ^^^ rotateRight (w 1) 18 ^^^ (w 1 >>> 3)
  let small₁ := rotateRight (w 14) 17 ^^^ rotateRight (w 14) 19 ^^^ (w 14 >>> 10)
  w 0 + small₀ + w 9 + small₁

/-- The next `n` words of the schedule, which begin with the words of the window. -/
def schedule : (n : Nat) → (window : List UInt32) → List UInt32
  | n + 1, word :: window => word :: schedule n (window ++ [nextWord (word :: window)])
  | _, _ => []

def round (r : Registers) (constant word : UInt32) : Registers :=
  let big₁ := rotateRight r.e 6 ^^^ rotateRight r.e 11 ^^^ rotateRight r.e 25
  let choice := (r.e &&& r.f) ^^^ (~~~r.e &&& r.g)
  let big₀ := rotateRight r.a 2 ^^^ rotateRight r.a 13 ^^^ rotateRight r.a 22
  let majority := (r.a &&& r.b) ^^^ (r.a &&& r.c) ^^^ (r.b &&& r.c)
  let mixed := r.h + big₁ + choice + constant + word
  ⟨mixed + big₀ + majority, r.a, r.b, r.c, r.d + mixed, r.e, r.f, r.g⟩

def addRegisters (r s : Registers) : Registers :=
  ⟨r.a + s.a, r.b + s.b, r.c + s.c, r.d + s.d, r.e + s.e, r.f + s.f, r.g + s.g, r.h + s.h⟩

/-- Mixes a block into the chaining state. -/
def compress (r : Registers) (block : List UInt32) : Registers :=
  let rounds := roundConstants.zip (schedule 64 block)
  addRegisters r (rounds.foldl (fun r (constant, word) => round r constant word) r)

/-- Compresses the first `n` blocks. -/
def compressBlocks : (n : Nat) → Registers → List UInt32 → Registers
  | 0, r, _ => r
  | n + 1, r, words => compressBlocks n (compress r (words.take 16)) (words.drop 16)

/-! ## Digests -/

/-- How many zeros complete a last block that also holds a marker and eight bytes of length. -/
def paddingZeros (size : Nat) : Nat := (119 - size % 64) % 64

/-- The number of bits, in eight bytes. -/
def lengthBytes (size : Nat) : List UInt8 :=
  let bits := 8 * size
  wordBytes (UInt32.ofNat (bits / Nat.pow 2 32)) ++ wordBytes (UInt32.ofNat bits)

def pad (message : List UInt8) : List UInt8 :=
  message ++ 0x80 :: (List.replicate (paddingZeros message.length) 0 ++ lengthBytes message.length)

def registerBytes (r : Registers) : List UInt8 :=
  [r.a, r.b, r.c, r.d, r.e, r.f, r.g, r.h].flatMap wordBytes

theorem length_registerBytes (r : Registers) : (registerBytes r).length = 32 := rfl

end Sha256

open Sha256

def sha256 (message : List UInt8) : List UInt8 :=
  let words := wordsOfBytes (pad message)
  registerBytes (compressBlocks (words.length / 16) start words)

theorem length_sha256 (message : List UInt8) : (sha256 message).length = 32 :=
  length_registerBytes _

end BoardRules.Digest
