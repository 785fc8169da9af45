/-!
# Text as bytes

The bytes of a text, and the text in a sequence of bytes.  Bytes that are no part of an encoded
character are kept apart as gaps, one for every longest run of bytes that begins a character and
does not go on as one, so nothing is lost when a reader cares only about some of the text.
-/

set_option autoImplicit false
namespace FirmwareLane
namespace Text

/-- A sequence of bytes. -/
abbrev Bytes := List UInt8

/-- A character, or a gap where bytes encode none. -/
abbrev Glyph := Option Char

namespace Utf8

/-! ## Encoding -/

/-- The bytes of a character. -/
def encodeChar (c : Char) : Bytes := String.utf8EncodeChar c

/-- The bytes of a text. -/
def encode (s : List Char) : Bytes := s.flatMap encodeChar

/-- The bytes of a string. -/
def bytes (s : String) : Bytes := encode s.toList

/-! ## Decoding -/

/-- Whether a byte may follow the first byte of a character. -/
def isContinuation (b : UInt8) : Bool := 0x80 ≤ b && b ≤ 0xBF

/-- What the first byte of a character says: the number of bytes to follow, the range of the next
one, and the value so far.  The ranges rule out longer spellings than needed, halves of surrogate
pairs and values above the last character. -/
def lead? (b : UInt8) : Option (Nat × UInt8 × UInt8 × Nat) :=
  if b < 0x80 then some (0, 0, 0, b.toNat)
  else if 0xC2 ≤ b && b ≤ 0xDF then some (1, 0x80, 0xBF, b.toNat - 0xC0)
  else if b == 0xE0 then some (2, 0xA0, 0xBF, 0)
  else if b == 0xED then some (2, 0x80, 0x9F, 0xD)
  else if 0xE1 ≤ b && b ≤ 0xEF then some (2, 0x80, 0xBF, b.toNat - 0xE0)
  else if b == 0xF0 then some (3, 0x90, 0xBF, 0)
  else if 0xF1 ≤ b && b ≤ 0xF3 then some (3, 0x80, 0xBF, b.toNat - 0xF0)
  else if b == 0xF4 then some (3, 0x80, 0x8F, 4)
  else none

/-- A character that is not complete yet: the bytes to follow, the range of the next one, and the
value so far. -/
structure Pending where
  missing : Nat
  least : UInt8
  greatest : UInt8
  value : Nat

/-- The glyphs of bytes behind a character that is not complete yet, in reverse in front of those
already decoded. -/
def decodeOnto : Option Pending → List Glyph → Bytes → List Glyph
  | none, done, [] => done
  | some _, done, [] => none :: done
  | pending, done, b :: rest =>
    let fresh (done : List Glyph) : List Glyph :=
      match lead? b with
      | none => decodeOnto none (none :: done) rest
      | some (0, _, _, value) => decodeOnto none (some (Char.ofNat value) :: done) rest
      | some (missing, least, greatest, value) =>
        decodeOnto (some ⟨missing, least, greatest, value⟩) done rest
    match pending with
    | none => fresh done
    | some p =>
      if p.least ≤ b && b ≤ p.greatest then
        let value := p.value * 64 + (b.toNat - 0x80)
        if p.missing ≤ 1 then decodeOnto none (some (Char.ofNat value) :: done) rest
        else decodeOnto (some ⟨p.missing - 1, 0x80, 0xBF, value⟩) done rest
      else fresh (none :: done)

/-- The glyphs in a sequence of bytes. -/
def glyphs (b : Bytes) : List Glyph := (decodeOnto none [] b).reverse

/-- The text in a sequence of bytes, if it has no gap. -/
def decode? (b : Bytes) : Option (List Char) := (glyphs b).mapM id

/-- The string in a sequence of bytes, if it has no gap. -/
def string? (b : Bytes) : Option String := (decode? b).map String.ofList

/-- The text in a sequence of bytes, with a replacement character for every gap. -/
def lossy (b : Bytes) : String := String.ofList ((glyphs b).map (·.getD '\uFFFD'))

end Utf8
end Text
end FirmwareLane
