import Mathlib.Data.List.Basic

/-!
# SHA-256

The hash function of `hashlib.sha256`, on lists of bytes: padding, the message
schedule, the compression function, and the digest in hexadecimal.
-/

namespace Sha256

/-- The round constants. -/
def roundConstants : List UInt32 :=
  [0x428a2f98, 0x71374491, 0xb5c0fbcf, 0xe9b5dba5, 0x3956c25b, 0x59f111f1, 0x923f82a4,
   0xab1c5ed5, 0xd807aa98, 0x12835b01, 0x243185be, 0x550c7dc3, 0x72be5d74, 0x80deb1fe,
   0x9bdc06a7, 0xc19bf174, 0xe49b69c1, 0xefbe4786, 0x0fc19dc6, 0x240ca1cc, 0x2de92c6f,
   0x4a7484aa, 0x5cb0a9dc, 0x76f988da, 0x983e5152, 0xa831c66d, 0xb00327c8, 0xbf597fc7,
   0xc6e00bf3, 0xd5a79147, 0x06ca6351, 0x14292967, 0x27b70a85, 0x2e1b2138, 0x4d2c6dfc,
   0x53380d13, 0x650a7354, 0x766a0abb, 0x81c2c92e, 0x92722c85, 0xa2bfe8a1, 0xa81a664b,
   0xc24b8b70, 0xc76c51a3, 0xd192e819, 0xd6990624, 0xf40e3585, 0x106aa070, 0x19a4c116,
   0x1e376c08, 0x2748774c, 0x34b0bcb5, 0x391c0cb3, 0x4ed8aa4a, 0x5b9cca4f, 0x682e6ff3,
   0x748f82ee, 0x78a5636f, 0x84c87814, 0x8cc70208, 0x90befffa, 0xa4506ceb, 0xbef9a3f7,
   0xc67178f2]

/-- The chaining value: eight working words. -/
structure Words where
  a : UInt32
  b : UInt32
  c : UInt32
  d : UInt32
  e : UInt32
  f : UInt32
  g : UInt32
  h : UInt32

/-- The fractional parts of the square roots of the first eight primes. -/
def Words.initial : Words :=
  ⟨0x6a09e667, 0xbb67ae85, 0x3c6ef372, 0xa54ff53a, 0x510e527f, 0x9b05688c, 0x1f83d9ab,
   0x5be0cd19⟩

/-- Addition, word by word. -/
def Words.add (x y : Words) : Words :=
  ⟨x.a + y.a, x.b + y.b, x.c + y.c, x.d + y.d, x.e + y.e, x.f + y.f, x.g + y.g, x.h + y.h⟩

/-- The words in their order. -/
def Words.toList (x : Words) : List UInt32 := [x.a, x.b, x.c, x.d, x.e, x.f, x.g, x.h]

/-- Rotation to the right. -/
def rotr (x : UInt32) (n : UInt32) : UInt32 := (x >>> n) ||| (x <<< (32 - n))

/-- One round, under round constant `k` and schedule word `w`. -/
def Words.round (x : Words) (k w : UInt32) : Words :=
  let s₁ := rotr x.e 6 ^^^ rotr x.e 11 ^^^ rotr x.e 25
  let choice := (x.e &&& x.f) ^^^ (x.e.complement &&& x.g)
  let t₁ := x.h + s₁ + choice + k + w
  let s₀ := rotr x.a 2 ^^^ rotr x.a 13 ^^^ rotr x.a 22
  let majority := (x.a &&& x.b) ^^^ (x.a &&& x.c) ^^^ (x.b &&& x.c)
  ⟨t₁ + (s₀ + majority), x.a, x.b, x.c, x.d + t₁, x.e, x.f, x.g⟩

/-- The next word of the schedule, from the words so far, newest first. -/
def nextWord (newestFirst : List UInt32) : UInt32 :=
  let w₂ := newestFirst.getD 1 0
  let w₁₅ := newestFirst.getD 14 0
  (rotr w₂ 17 ^^^ rotr w₂ 19 ^^^ (w₂ >>> 10)) + newestFirst.getD 6 0 +
    (rotr w₁₅ 7 ^^^ rotr w₁₅ 18 ^^^ (w₁₅ >>> 3)) + newestFirst.getD 15 0

/-- `n` more schedule words, newest first. -/
def schedule : Nat → List UInt32 → List UInt32
  | 0, ws => ws
  | n + 1, ws => schedule n (nextWord ws :: ws)

/-- Big-endian words. -/
def wordsOf : List UInt8 → List UInt32
  | b₀ :: b₁ :: b₂ :: b₃ :: rest =>
      (b₀.toUInt32 <<< 24 ||| b₁.toUInt32 <<< 16 ||| b₂.toUInt32 <<< 8 ||| b₃.toUInt32) ::
        wordsOf rest
  | _ => []

/-- Absorb one block of 64 bytes. -/
def Words.compress (x : Words) (block : List UInt8) : Words :=
  let ws := (schedule 48 (wordsOf block).reverse).reverse
  x.add ((roundConstants.zip ws).foldl (fun y kw => y.round kw.1 kw.2) x)

/-- The bytes of `n`, `k` of them, big-endian. -/
def bytesOf : Nat → Nat → List UInt8
  | 0, _ => []
  | k + 1, n => bytesOf k (n / 256) ++ [UInt8.ofNat n]

/-- A one bit, zeros up to eight bytes short of a whole block, and the length in bits. -/
def pad (message : List UInt8) : List UInt8 :=
  message ++ [0x80] ++ List.replicate ((119 - message.length % 64) % 64) 0 ++
    bytesOf 8 (8 * message.length)

/-- The bytes, cut into blocks. -/
def blocks (bytes : List UInt8) : List (List UInt8) :=
  (List.range (bytes.length / 64)).map (fun i => (bytes.drop (64 * i)).take 64)

/-- `hashlib.sha256(message).digest()`. -/
def digest (message : List UInt8) : List UInt8 :=
  (((blocks (pad message)).foldl Words.compress Words.initial).toList).flatMap
    (fun word => bytesOf 4 word.toNat)

/-- `hashlib.sha256(message).hexdigest()`. -/
def hexdigest (message : List UInt8) : String :=
  String.ofList ((digest message).flatMap
    (fun b => [Nat.digitChar (b.toNat / 16), Nat.digitChar (b.toNat % 16)]))

example : hexdigest [0x61, 0x62, 0x63] =
    "ba7816bf8f01cfea414140de5dae2223b00361a396177a9cb410ff61f20015ad" := by
  decide +kernel

end Sha256
