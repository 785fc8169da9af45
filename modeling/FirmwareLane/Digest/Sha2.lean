import FirmwareLane.Text.Numeral
import FirmwareLane.Text.Utf8

/-!
# SHA-256 and SHA-512

The digests of a sequence of bytes: the bytes are padded to whole blocks with their number of bits at
the end, and the blocks are mixed one after another into eight words, of thirty-two bits or of
sixty-four.
-/

set_option autoImplicit false
namespace FirmwareLane

/-! ## Words of thirty-two bits -/

namespace Sha256

open Text (Bytes)

/-- The constants that are added in the rounds: the first bits of the fractional parts of the cube
roots of the first primes. -/
def roundConstants : List UInt32 :=
  [0x428a2f98, 0x71374491, 0xb5c0fbcf, 0xe9b5dba5, 0x3956c25b, 0x59f111f1, 0x923f82a4, 0xab1c5ed5,
   0xd807aa98, 0x12835b01, 0x243185be, 0x550c7dc3, 0x72be5d74, 0x80deb1fe, 0x9bdc06a7, 0xc19bf174,
   0xe49b69c1, 0xefbe4786, 0x0fc19dc6, 0x240ca1cc, 0x2de92c6f, 0x4a7484aa, 0x5cb0a9dc, 0x76f988da,
   0x983e5152, 0xa831c66d, 0xb00327c8, 0xbf597fc7, 0xc6e00bf3, 0xd5a79147, 0x06ca6351, 0x14292967,
   0x27b70a85, 0x2e1b2138, 0x4d2c6dfc, 0x53380d13, 0x650a7354, 0x766a0abb, 0x81c2c92e, 0x92722c85,
   0xa2bfe8a1, 0xa81a664b, 0xc24b8b70, 0xc76c51a3, 0xd192e819, 0xd6990624, 0xf40e3585, 0x106aa070,
   0x19a4c116, 0x1e376c08, 0x2748774c, 0x34b0bcb5, 0x391c0cb3, 0x4ed8aa4a, 0x5b9cca4f, 0x682e6ff3,
   0x748f82ee, 0x78a5636f, 0x84c87814, 0x8cc70208, 0x90befffa, 0xa4506ceb, 0xbef9a3f7, 0xc67178f2]

/-- The eight words of a digest. -/
structure State where
  a : UInt32
  b : UInt32
  c : UInt32
  d : UInt32
  e : UInt32
  f : UInt32
  g : UInt32
  h : UInt32
  deriving DecidableEq, Repr

/-- The words before the first block: the first bits of the fractional parts of the square roots of
the first primes. -/
def start : State :=
  ⟨0x6a09e667, 0xbb67ae85, 0x3c6ef372, 0xa54ff53a, 0x510e527f, 0x9b05688c, 0x1f83d9ab, 0x5be0cd19⟩

/-- A word rotated to the right. -/
def rotate (w : UInt32) (n : UInt32) : UInt32 := (w >>> n) ||| (w <<< (32 - n))

/-! ### Blocks -/

/-- The bytes of a number, the most significant first. -/
def bigEndian (width n : Nat) : Bytes :=
  (List.range width).map fun i ↦ UInt8.ofNat (n / Nat.pow 256 (width - 1 - i))

/-- The bytes with their padding. -/
def padded (bytes : Bytes) : Bytes :=
  let zeros := (119 - bytes.length % 64) % 64
  bytes ++ 0x80 :: (List.replicate zeros 0 ++ bigEndian 8 (8 * bytes.length))

/-- The words of bytes, the most significant byte first. -/
def words : Bytes → List UInt32
  | a :: b :: c :: d :: rest =>
    ((a.toUInt32 <<< 24) ||| (b.toUInt32 <<< 16) ||| (c.toUInt32 <<< 8) ||| d.toUInt32) ::
      words rest
  | _ => []

/-- The word that follows sixteen words of a schedule. -/
def nextWord (w : Array UInt32) : UInt32 :=
  let back (n : Nat) : UInt32 := w.getD (w.size - n) 0
  let x := back 15
  let y := back 2
  let s0 := rotate x 7 ^^^ rotate x 18 ^^^ (x >>> 3)
  let s1 := rotate y 17 ^^^ rotate y 19 ^^^ (y >>> 10)
  back 16 + s0 + back 7 + s1

/-- The words of a block and the forty-eight that follow from them. -/
def schedule (block : List UInt32) : List UInt32 :=
  ((List.range 48).foldl (fun w _ ↦ w.push (nextWord w)) block.toArray).toList

/-- One round. -/
def round (s : State) (k w : UInt32) : State :=
  let s1 := rotate s.e 6 ^^^ rotate s.e 11 ^^^ rotate s.e 25
  let choice := (s.e &&& s.f) ^^^ (~~~s.e &&& s.g)
  let t1 := s.h + s1 + choice + k + w
  let s0 := rotate s.a 2 ^^^ rotate s.a 13 ^^^ rotate s.a 22
  let majority := (s.a &&& s.b) ^^^ (s.a &&& s.c) ^^^ (s.b &&& s.c)
  ⟨t1 + s0 + majority, s.a, s.b, s.c, s.d + t1, s.e, s.f, s.g⟩

/-- A block mixed into the words. -/
def mix (s : State) (block : List UInt32) : State :=
  let t := (roundConstants.zip (schedule block)).foldl (fun t (k, w) ↦ round t k w) s
  ⟨s.a + t.a, s.b + t.b, s.c + t.c, s.d + t.d, s.e + t.e, s.f + t.f, s.g + t.g, s.h + t.h⟩

/-- Words mixed in, sixteen at a time; fuel for one step per block. -/
def mixAll : Nat → State → List UInt32 → State
  | 0, s, _ => s
  | fuel + 1, s, ws => if ws.isEmpty then s else mixAll fuel (mix s (ws.take 16)) (ws.drop 16)

/-! ### The digest -/

/-- The words of the digest of bytes. -/
def digest (bytes : Bytes) : State :=
  let ws := words (padded bytes)
  mixAll (ws.length / 16 + 1) start ws

/-- The digest of bytes in hexadecimal digits. -/
def hex (bytes : Bytes) : String :=
  let s := digest bytes
  String.ofList <| [s.a, s.b, s.c, s.d, s.e, s.f, s.g, s.h].flatMap fun w ↦
    Text.Numeral.writePadded 16 8 w.toNat

end Sha256

/-! ## Words of sixty-four bits -/

namespace Sha512

open Text (Bytes)

/-- The constants that are added in the rounds: the first bits of the fractional parts of the cube
roots of the first primes. -/
def roundConstants : List UInt64 :=
  [0x428a2f98d728ae22, 0x7137449123ef65cd, 0xb5c0fbcfec4d3b2f, 0xe9b5dba58189dbbc,
   0x3956c25bf348b538, 0x59f111f1b605d019, 0x923f82a4af194f9b, 0xab1c5ed5da6d8118,
   0xd807aa98a3030242, 0x12835b0145706fbe, 0x243185be4ee4b28c, 0x550c7dc3d5ffb4e2,
   0x72be5d74f27b896f, 0x80deb1fe3b1696b1, 0x9bdc06a725c71235, 0xc19bf174cf692694,
   0xe49b69c19ef14ad2, 0xefbe4786384f25e3, 0x0fc19dc68b8cd5b5, 0x240ca1cc77ac9c65,
   0x2de92c6f592b0275, 0x4a7484aa6ea6e483, 0x5cb0a9dcbd41fbd4, 0x76f988da831153b5,
   0x983e5152ee66dfab, 0xa831c66d2db43210, 0xb00327c898fb213f, 0xbf597fc7beef0ee4,
   0xc6e00bf33da88fc2, 0xd5a79147930aa725, 0x06ca6351e003826f, 0x142929670a0e6e70,
   0x27b70a8546d22ffc, 0x2e1b21385c26c926, 0x4d2c6dfc5ac42aed, 0x53380d139d95b3df,
   0x650a73548baf63de, 0x766a0abb3c77b2a8, 0x81c2c92e47edaee6, 0x92722c851482353b,
   0xa2bfe8a14cf10364, 0xa81a664bbc423001, 0xc24b8b70d0f89791, 0xc76c51a30654be30,
   0xd192e819d6ef5218, 0xd69906245565a910, 0xf40e35855771202a, 0x106aa07032bbd1b8,
   0x19a4c116b8d2d0c8, 0x1e376c085141ab53, 0x2748774cdf8eeb99, 0x34b0bcb5e19b48a8,
   0x391c0cb3c5c95a63, 0x4ed8aa4ae3418acb, 0x5b9cca4f7763e373, 0x682e6ff3d6b2b8a3,
   0x748f82ee5defb2fc, 0x78a5636f43172f60, 0x84c87814a1f0ab72, 0x8cc702081a6439ec,
   0x90befffa23631e28, 0xa4506cebde82bde9, 0xbef9a3f7b2c67915, 0xc67178f2e372532b,
   0xca273eceea26619c, 0xd186b8c721c0c207, 0xeada7dd6cde0eb1e, 0xf57d4f7fee6ed178,
   0x06f067aa72176fba, 0x0a637dc5a2c898a6, 0x113f9804bef90dae, 0x1b710b35131c471b,
   0x28db77f523047d84, 0x32caab7b40c72493, 0x3c9ebe0a15c9bebc, 0x431d67c49c100d4c,
   0x4cc5d4becb3e42b6, 0x597f299cfc657e2a, 0x5fcb6fab3ad6faec, 0x6c44198c4a475817]

/-- The eight words of a digest. -/
structure State where
  a : UInt64
  b : UInt64
  c : UInt64
  d : UInt64
  e : UInt64
  f : UInt64
  g : UInt64
  h : UInt64
  deriving DecidableEq, Repr

/-- The words before the first block: the first bits of the fractional parts of the square roots of
the first primes. -/
def start : State :=
  ⟨0x6a09e667f3bcc908, 0xbb67ae8584caa73b, 0x3c6ef372fe94f82b, 0xa54ff53a5f1d36f1,
   0x510e527fade682d1, 0x9b05688c2b3e6c1f, 0x1f83d9abfb41bd6b, 0x5be0cd19137e2179⟩

/-- A word rotated to the right. -/
def rotate (w : UInt64) (n : UInt64) : UInt64 := (w >>> n) ||| (w <<< (64 - n))

/-! ### Blocks -/

/-- The bytes with their padding. -/
def padded (bytes : Bytes) : Bytes :=
  let zeros := (239 - bytes.length % 128) % 128
  bytes ++ 0x80 :: (List.replicate zeros 0 ++ Sha256.bigEndian 16 (8 * bytes.length))

/-- The words of bytes, the most significant byte first. -/
def words : Bytes → List UInt64
  | a :: b :: c :: d :: e :: f :: g :: h :: rest =>
    [b, c, d, e, f, g, h].foldl (fun w x ↦ (w <<< 8) ||| x.toUInt64) a.toUInt64 :: words rest
  | _ => []

/-- The word that follows sixteen words of a schedule. -/
def nextWord (w : Array UInt64) : UInt64 :=
  let back (n : Nat) : UInt64 := w.getD (w.size - n) 0
  let x := back 15
  let y := back 2
  let s0 := rotate x 1 ^^^ rotate x 8 ^^^ (x >>> 7)
  let s1 := rotate y 19 ^^^ rotate y 61 ^^^ (y >>> 6)
  back 16 + s0 + back 7 + s1

/-- The words of a block and the sixty-four that follow from them. -/
def schedule (block : List UInt64) : List UInt64 :=
  ((List.range 64).foldl (fun w _ ↦ w.push (nextWord w)) block.toArray).toList

/-- One round. -/
def round (s : State) (k w : UInt64) : State :=
  let s1 := rotate s.e 14 ^^^ rotate s.e 18 ^^^ rotate s.e 41
  let choice := (s.e &&& s.f) ^^^ (~~~s.e &&& s.g)
  let t1 := s.h + s1 + choice + k + w
  let s0 := rotate s.a 28 ^^^ rotate s.a 34 ^^^ rotate s.a 39
  let majority := (s.a &&& s.b) ^^^ (s.a &&& s.c) ^^^ (s.b &&& s.c)
  ⟨t1 + s0 + majority, s.a, s.b, s.c, s.d + t1, s.e, s.f, s.g⟩

/-- A block mixed into the words. -/
def mix (s : State) (block : List UInt64) : State :=
  let t := (roundConstants.zip (schedule block)).foldl (fun t (k, w) ↦ round t k w) s
  ⟨s.a + t.a, s.b + t.b, s.c + t.c, s.d + t.d, s.e + t.e, s.f + t.f, s.g + t.g, s.h + t.h⟩

/-- Words mixed in, sixteen at a time; fuel for one step per block. -/
def mixAll : Nat → State → List UInt64 → State
  | 0, s, _ => s
  | fuel + 1, s, ws => if ws.isEmpty then s else mixAll fuel (mix s (ws.take 16)) (ws.drop 16)

/-! ### The digest -/

/-- The words of the digest of bytes. -/
def digest (bytes : Bytes) : State :=
  let ws := words (padded bytes)
  mixAll (ws.length / 16 + 1) start ws

/-- The digest of bytes in hexadecimal digits. -/
def hex (bytes : Bytes) : String :=
  let s := digest bytes
  String.ofList <| [s.a, s.b, s.c, s.d, s.e, s.f, s.g, s.h].flatMap fun w ↦
    Text.Numeral.writePadded 16 16 w.toNat

end Sha512
end FirmwareLane
