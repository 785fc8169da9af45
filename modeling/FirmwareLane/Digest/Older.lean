import FirmwareLane.Digest.Sha2

/-!
# MD5 and SHA-1

Digests of sequences of bytes that are still asked for: the bytes are padded to whole blocks with
their number of bits at the end, and the blocks are mixed one after another into four words, or into
five.  MD5 writes words with the least significant byte first.
-/

set_option autoImplicit false
namespace FirmwareLane

/-! ## MD5 -/

namespace Md5

open Text (Bytes)

/-- The constants that are added in the rounds: the first bits of the sines of the first
integers. -/
def roundConstants : List UInt32 :=
  [0xd76aa478, 0xe8c7b756, 0x242070db, 0xc1bdceee, 0xf57c0faf, 0x4787c62a, 0xa8304613, 0xfd469501,
   0x698098d8, 0x8b44f7af, 0xffff5bb1, 0x895cd7be, 0x6b901122, 0xfd987193, 0xa679438e, 0x49b40821,
   0xf61e2562, 0xc040b340, 0x265e5a51, 0xe9b6c7aa, 0xd62f105d, 0x02441453, 0xd8a1e681, 0xe7d3fbc8,
   0x21e1cde6, 0xc33707d6, 0xf4d50d87, 0x455a14ed, 0xa9e3e905, 0xfcefa3f8, 0x676f02d9, 0x8d2a4c8a,
   0xfffa3942, 0x8771f681, 0x6d9d6122, 0xfde5380c, 0xa4beea44, 0x4bdecfa9, 0xf6bb4b60, 0xbebfbc70,
   0x289b7ec6, 0xeaa127fa, 0xd4ef3085, 0x04881d05, 0xd9d4d039, 0xe6db99e5, 0x1fa27cf8, 0xc4ac5665,
   0xf4292244, 0x432aff97, 0xab9423a7, 0xfc93a039, 0x655b59c3, 0x8f0ccc92, 0xffeff47d, 0x85845dd1,
   0x6fa87e4f, 0xfe2ce6e0, 0xa3014314, 0x4e0811a1, 0xf7537e82, 0xbd3af235, 0x2ad7d2bb, 0xeb86d391]

/-- How far words are rotated in the rounds, four numbers for every sixteen of them. -/
def rotations : List (List UInt32) :=
  [[7, 12, 17, 22], [5, 9, 14, 20], [4, 11, 16, 23], [6, 10, 15, 21]]

/-- The four words of a digest. -/
structure State where
  a : UInt32
  b : UInt32
  c : UInt32
  d : UInt32
  deriving DecidableEq, Repr

/-- The words before the first block. -/
def start : State := ⟨0x67452301, 0xefcdab89, 0x98badcfe, 0x10325476⟩

/-- A word rotated to the left. -/
def rotate (w : UInt32) (n : UInt32) : UInt32 := (w <<< n) ||| (w >>> (32 - n))

/-- The bytes with their padding. -/
def padded (bytes : Bytes) : Bytes :=
  let zeros := (119 - bytes.length % 64) % 64
  bytes ++ 0x80 :: (List.replicate zeros 0 ++ (Sha256.bigEndian 8 (8 * bytes.length)).reverse)

/-- The words of bytes, the least significant byte first. -/
def words : Bytes → List UInt32
  | a :: b :: c :: d :: rest =>
    (a.toUInt32 ||| (b.toUInt32 <<< 8) ||| (c.toUInt32 <<< 16) ||| (d.toUInt32 <<< 24)) ::
      words rest
  | _ => []

/-- What the round of a number makes of three words, and the number of the word of the block that it
takes. -/
def combined (i : Nat) (b c d : UInt32) : UInt32 × Nat :=
  if i < 16 then ((b &&& c) ||| (~~~b &&& d), i)
  else if i < 32 then ((d &&& b) ||| (~~~d &&& c), (5 * i + 1) % 16)
  else if i < 48 then (b ^^^ c ^^^ d, (3 * i + 5) % 16)
  else (c ^^^ (b ||| ~~~d), (7 * i) % 16)

/-- The round of a number. -/
def round (block : Array UInt32) (s : State) (k : UInt32) (i : Nat) : State :=
  let (f, j) := combined i s.b s.c s.d
  let distance := ((rotations.getD (i / 16) []).getD (i % 4) 0)
  ⟨s.d, s.b + rotate (f + s.a + k + block.getD j 0) distance, s.b, s.c⟩

/-- A block mixed into the words. -/
def mix (s : State) (block : List UInt32) : State :=
  let t := roundConstants.zipIdx.foldl (fun t (k, i) ↦ round block.toArray t k i) s
  ⟨s.a + t.a, s.b + t.b, s.c + t.c, s.d + t.d⟩

/-- Words mixed in, sixteen at a time; fuel for one step per block. -/
def mixAll : Nat → State → List UInt32 → State
  | 0, s, _ => s
  | fuel + 1, s, ws => if ws.isEmpty then s else mixAll fuel (mix s (ws.take 16)) (ws.drop 16)

/-- The digest of bytes in hexadecimal digits. -/
def hex (bytes : Bytes) : String :=
  let ws := words (padded bytes)
  let s := mixAll (ws.length / 16 + 1) start ws
  let inOrder (w : UInt32) : Bytes := (Sha256.bigEndian 4 w.toNat).reverse
  String.ofList <| ([s.a, s.b, s.c, s.d].flatMap inOrder).flatMap fun b ↦
    Text.Numeral.writePadded 16 2 b.toNat

end Md5

/-! ## SHA-1 -/

namespace Sha1

open Text (Bytes)

/-- The five words of a digest. -/
structure State where
  a : UInt32
  b : UInt32
  c : UInt32
  d : UInt32
  e : UInt32
  deriving DecidableEq, Repr

/-- The words before the first block. -/
def start : State := ⟨0x67452301, 0xefcdab89, 0x98badcfe, 0x10325476, 0xc3d2e1f0⟩

/-- A word rotated to the left. -/
def rotate (w : UInt32) (n : UInt32) : UInt32 := (w <<< n) ||| (w >>> (32 - n))

/-- The word that follows sixteen words of a schedule. -/
def nextWord (w : Array UInt32) : UInt32 :=
  let back (n : Nat) : UInt32 := w.getD (w.size - n) 0
  rotate (back 3 ^^^ back 8 ^^^ back 14 ^^^ back 16) 1

/-- The words of a block and the sixty-four that follow from them. -/
def schedule (block : List UInt32) : List UInt32 :=
  ((List.range 64).foldl (fun w _ ↦ w.push (nextWord w)) block.toArray).toList

/-- What the round of a number makes of three words, and its constant. -/
def combined (i : Nat) (b c d : UInt32) : UInt32 × UInt32 :=
  if i < 20 then ((b &&& c) ||| (~~~b &&& d), 0x5a827999)
  else if i < 40 then (b ^^^ c ^^^ d, 0x6ed9eba1)
  else if i < 60 then ((b &&& c) ||| (b &&& d) ||| (c &&& d), 0x8f1bbcdc)
  else (b ^^^ c ^^^ d, 0xca62c1d6)

/-- The round of a number. -/
def round (s : State) (w : UInt32) (i : Nat) : State :=
  let (f, k) := combined i s.b s.c s.d
  ⟨rotate s.a 5 + f + s.e + k + w, s.a, rotate s.b 30, s.c, s.d⟩

/-- A block mixed into the words. -/
def mix (s : State) (block : List UInt32) : State :=
  let t := (schedule block).zipIdx.foldl (fun t (w, i) ↦ round t w i) s
  ⟨s.a + t.a, s.b + t.b, s.c + t.c, s.d + t.d, s.e + t.e⟩

/-- Words mixed in, sixteen at a time; fuel for one step per block. -/
def mixAll : Nat → State → List UInt32 → State
  | 0, s, _ => s
  | fuel + 1, s, ws => if ws.isEmpty then s else mixAll fuel (mix s (ws.take 16)) (ws.drop 16)

/-- The digest of bytes in hexadecimal digits. -/
def hex (bytes : Bytes) : String :=
  let ws := Sha256.words (Sha256.padded bytes)
  let s := mixAll (ws.length / 16 + 1) start ws
  String.ofList <| [s.a, s.b, s.c, s.d, s.e].flatMap fun w ↦
    Text.Numeral.writePadded 16 8 w.toNat

end Sha1

end FirmwareLane
