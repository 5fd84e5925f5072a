import Mathlib.Data.Nat.Notation

/-!
# SHA-256

The hash SHA-256, as a function that can be evaluated (`Sha256.digest`).
-/

namespace Sha256

/-- The constants of the rounds. -/
def K : List UInt32 := [
  0x428a2f98, 0x71374491, 0xb5c0fbcf, 0xe9b5dba5, 0x3956c25b, 0x59f111f1, 0x923f82a4, 0xab1c5ed5,
  0xd807aa98, 0x12835b01, 0x243185be, 0x550c7dc3, 0x72be5d74, 0x80deb1fe, 0x9bdc06a7, 0xc19bf174,
  0xe49b69c1, 0xefbe4786, 0x0fc19dc6, 0x240ca1cc, 0x2de92c6f, 0x4a7484aa, 0x5cb0a9dc, 0x76f988da,
  0x983e5152, 0xa831c66d, 0xb00327c8, 0xbf597fc7, 0xc6e00bf3, 0xd5a79147, 0x06ca6351, 0x14292967,
  0x27b70a85, 0x2e1b2138, 0x4d2c6dfc, 0x53380d13, 0x650a7354, 0x766a0abb, 0x81c2c92e, 0x92722c85,
  0xa2bfe8a1, 0xa81a664b, 0xc24b8b70, 0xc76c51a3, 0xd192e819, 0xd6990624, 0xf40e3585, 0x106aa070,
  0x19a4c116, 0x1e376c08, 0x2748774c, 0x34b0bcb5, 0x391c0cb3, 0x4ed8aa4a, 0x5b9cca4f, 0x682e6ff3,
  0x748f82ee, 0x78a5636f, 0x84c87814, 0x8cc70208, 0x90befffa, 0xa4506ceb, 0xbef9a3f7, 0xc67178f2]

/-- The words that a block is worked into. -/
structure State where
  a : UInt32
  b : UInt32
  c : UInt32
  d : UInt32
  e : UInt32
  f : UInt32
  g : UInt32
  h : UInt32

/-- The words before the first block. -/
def initial : State :=
  ⟨0x6a09e667, 0xbb67ae85, 0x3c6ef372, 0xa54ff53a,
    0x510e527f, 0x9b05688c, 0x1f83d9ab, 0x5be0cd19⟩

def rotr (x n : UInt32) : UInt32 := x >>> n ||| x <<< (32 - n)

/-- What a word adds to the later ones of a block. -/
def smallSigma (i j k x : UInt32) : UInt32 := rotr x i ^^^ rotr x j ^^^ x >>> k

/-- What a word adds to a round. -/
def bigSigma (i j k x : UInt32) : UInt32 := rotr x i ^^^ rotr x j ^^^ rotr x k

def State.temp₁ (s : State) (k w : UInt32) : UInt32 :=
  s.h + bigSigma 6 11 25 s.e + (s.e &&& s.f ^^^ ~~~s.e &&& s.g) + k + w

def State.temp₂ (s : State) : UInt32 :=
  bigSigma 2 13 22 s.a + (s.a &&& s.b ^^^ s.a &&& s.c ^^^ s.b &&& s.c)

/-- A round, with its constant and its word. -/
def State.round (s : State) (k w : UInt32) : State :=
  ⟨s.temp₁ k w + s.temp₂, s.a, s.b, s.c, s.d + s.temp₁ k w, s.e, s.f, s.g⟩

/-- The word after these, of which the last comes first. -/
def nextWord (ws : List UInt32) : UInt32 :=
  smallSigma 17 19 10 (ws.getD 1 0) + ws.getD 6 0 + smallSigma 7 18 3 (ws.getD 14 0) + ws.getD 15 0

/-- So many words more. -/
def schedule : ℕ → List UInt32 → List UInt32
  | 0, ws => ws
  | n + 1, ws => schedule n (nextWord ws :: ws)

/-- The rounds with the constants and the words. -/
def State.rounds (s : State) (ws : List UInt32) : State :=
  (K.zip ws).foldl (fun s (k, w) => s.round k w) s

def State.add (s t : State) : State :=
  ⟨s.a + t.a, s.b + t.b, s.c + t.c, s.d + t.d, s.e + t.e, s.f + t.f, s.g + t.g, s.h + t.h⟩

/-- So many blocks of sixteen words. -/
def State.blocks : ℕ → State → List UInt32 → State
  | 0, s, _ => s
  | n + 1, s, ws =>
    blocks n (s.add (s.rounds (schedule 48 (ws.take 16).reverse).reverse)) (ws.drop 16)

/-- The words that bytes are, most significant byte first. -/
def words : List UInt8 → List UInt32
  | a :: b :: c :: d :: bytes =>
    (a.toUInt32 <<< 24 ||| b.toUInt32 <<< 16 ||| c.toUInt32 <<< 8 ||| d.toUInt32) :: words bytes
  | _ => []

/-- The bytes of a word, most significant first. -/
def wordBytes (w : UInt32) : List UInt8 :=
  [(w >>> 24).toUInt8, (w >>> 16).toUInt8, (w >>> 8).toUInt8, w.toUInt8]

/-- Bytes up to the end of a block, which tells how many bits they are: fewer than `2 ^ 32`. -/
def pad (bytes : List UInt8) : List UInt8 :=
  bytes ++ [0x80] ++ List.replicate ((119 - bytes.length % 64) % 64) 0 ++ wordBytes 0 ++
    wordBytes (UInt32.ofNat (bytes.length * 8))

def State.digest (s : State) : Vector UInt8 32 :=
  ⟨(wordBytes s.a ++ wordBytes s.b ++ wordBytes s.c ++ wordBytes s.d ++ wordBytes s.e ++
    wordBytes s.f ++ wordBytes s.g ++ wordBytes s.h).toArray, rfl⟩

/-- The hash of bytes. -/
def digest (bytes : List UInt8) : Vector UInt8 32 :=
  (initial.blocks ((pad bytes).length / 64) (words (pad bytes))).digest

example : (digest "abc".toUTF8.data.toList).toList =
    [0xba, 0x78, 0x16, 0xbf, 0x8f, 0x01, 0xcf, 0xea, 0x41, 0x41, 0x40, 0xde,
      0x5d, 0xae, 0x22, 0x23, 0xb0, 0x03, 0x61, 0xa3, 0x96, 0x17, 0x7a, 0x9c,
      0xb4, 0x10, 0xff, 0x61, 0xf2, 0x00, 0x15, 0xad] := by
  decide +kernel

end Sha256
