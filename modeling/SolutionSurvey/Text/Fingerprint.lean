/-!
# Fingerprints

The fingerprint of a text is the SHA-256 digest of its UTF-8 bytes, written with hexadecimal digits.
-/

namespace SolutionSurvey.Text.Fingerprint

/-- Thirty-two bits of the fractional parts of the cube roots of the first sixty-four primes. -/
def roundConstants : List UInt32 :=
  [0x428a2f98, 0x71374491, 0xb5c0fbcf, 0xe9b5dba5, 0x3956c25b, 0x59f111f1, 0x923f82a4, 0xab1c5ed5,
    0xd807aa98, 0x12835b01, 0x243185be, 0x550c7dc3, 0x72be5d74, 0x80deb1fe, 0x9bdc06a7, 0xc19bf174,
    0xe49b69c1, 0xefbe4786, 0x0fc19dc6, 0x240ca1cc, 0x2de92c6f, 0x4a7484aa, 0x5cb0a9dc, 0x76f988da,
    0x983e5152, 0xa831c66d, 0xb00327c8, 0xbf597fc7, 0xc6e00bf3, 0xd5a79147, 0x06ca6351, 0x14292967,
    0x27b70a85, 0x2e1b2138, 0x4d2c6dfc, 0x53380d13, 0x650a7354, 0x766a0abb, 0x81c2c92e, 0x92722c85,
    0xa2bfe8a1, 0xa81a664b, 0xc24b8b70, 0xc76c51a3, 0xd192e819, 0xd6990624, 0xf40e3585, 0x106aa070,
    0x19a4c116, 0x1e376c08, 0x2748774c, 0x34b0bcb5, 0x391c0cb3, 0x4ed8aa4a, 0x5b9cca4f, 0x682e6ff3,
    0x748f82ee, 0x78a5636f, 0x84c87814, 0x8cc70208, 0x90befffa, 0xa4506ceb, 0xbef9a3f7, 0xc67178f2]

/-- The eight words that are updated by each block. -/
structure Digest where
  a : UInt32
  b : UInt32
  c : UInt32
  d : UInt32
  e : UInt32
  f : UInt32
  g : UInt32
  h : UInt32
  deriving DecidableEq, Repr, Inhabited

namespace Digest

/-- Thirty-two bits of the fractional parts of the square roots of the first eight primes. -/
def start : Digest :=
  ⟨0x6a09e667, 0xbb67ae85, 0x3c6ef372, 0xa54ff53a, 0x510e527f, 0x9b05688c, 0x1f83d9ab, 0x5be0cd19⟩

def add (left right : Digest) : Digest :=
  ⟨left.a + right.a, left.b + right.b, left.c + right.c, left.d + right.d, left.e + right.e,
    left.f + right.f, left.g + right.g, left.h + right.h⟩

def toWords (digest : Digest) : List UInt32 :=
  [digest.a, digest.b, digest.c, digest.d, digest.e, digest.f, digest.g, digest.h]

end Digest

def rotateRight (word : UInt32) (count : UInt32) : UInt32 :=
  (word >>> count) ||| (word <<< (32 - count))

/-- The words of a block, sixteen as they stand and the others mixed from earlier ones. -/
def schedule (block : List UInt32) : List UInt32 :=
  let mixed := (List.range 48).foldl (fun (words : Array UInt32) step =>
    let earlier (back : Nat) : UInt32 := words.getD (step + 16 - back) 0
    let early := earlier 15
    let late := earlier 2
    let first := rotateRight early 7 ^^^ rotateRight early 18 ^^^ (early >>> 3)
    let second := rotateRight late 17 ^^^ rotateRight late 19 ^^^ (late >>> 10)
    words.push (earlier 16 + first + earlier 7 + second)) block.toArray
  mixed.toList

def round (digest : Digest) (word constant : UInt32) : Digest :=
  let ⟨a, b, c, d, e, f, g, h⟩ := digest
  let upper := rotateRight e 6 ^^^ rotateRight e 11 ^^^ rotateRight e 25
  let chosen := (e &&& f) ^^^ ((~~~e) &&& g)
  let first := h + upper + chosen + constant + word
  let lower := rotateRight a 2 ^^^ rotateRight a 13 ^^^ rotateRight a 22
  let common := (a &&& b) ^^^ (a &&& c) ^^^ (b &&& c)
  ⟨first + (lower + common), a, b, c, d + first, e, f, g⟩

def compress (digest : Digest) (block : List UInt32) : Digest :=
  digest.add (((schedule block).zip roundConstants).foldl
    (fun state (word, constant) => round state word constant) digest)

/-- The bytes of a number, the most significant first. -/
def bigEndian (count number : Nat) : List UInt8 :=
  ((List.range count).map fun place => (number >>> (8 * place)).toUInt8).reverse

/-- Fill up to whole blocks: a one bit, zeros, and the length in bits. -/
def pad (bytes : List UInt8) : List UInt8 :=
  bytes ++ (0x80 :: List.replicate ((119 - bytes.length % 64) % 64) 0) ++
    bigEndian 8 (8 * bytes.length)

def toWords : List UInt8 → List UInt32
  | a :: b :: c :: d :: rest =>
      ((a.toUInt32 <<< 24) ||| (b.toUInt32 <<< 16) ||| (c.toUInt32 <<< 8) ||| d.toUInt32) ::
        toWords rest
  | _ => []

def toBlocks (words : List UInt32) : List (List UInt32) :=
  (List.range (words.length / 16)).map fun place => (words.drop (16 * place)).take 16

def digest (bytes : List UInt8) : Digest :=
  (toBlocks (toWords (pad bytes))).foldl compress .start

def hexadecimal (word : UInt32) : List Char :=
  ((List.range 8).map fun place => Nat.digitChar (word.toNat / Nat.pow 16 place % 16)).reverse

end Fingerprint

def fingerprint (text : String) : String :=
  String.ofList ((Fingerprint.digest text.toUTF8.toList).toWords.flatMap Fingerprint.hexadecimal)

end SolutionSurvey.Text
