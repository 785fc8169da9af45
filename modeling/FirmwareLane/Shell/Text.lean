import FirmwareLane.Text.Numeral
import FirmwareLane.Text.Utf8

/-!
# Text of a shell

A shell works on bytes and gives a meaning to some of them.  Here a text of the shell is a list of
characters each of which stands for a byte.
-/

set_option autoImplicit false
namespace FirmwareLane
namespace Shell

/-- A text of the shell: characters that stand for bytes. -/
abbrev Chars := List Char

namespace Chars

/-- The characters that stand for bytes. -/
def ofBytes (b : Text.Bytes) : Chars := b.map fun x ↦ Char.ofNat x.toNat

/-- The bytes that characters stand for. -/
def toBytes (s : Chars) : Text.Bytes := s.map fun c ↦ UInt8.ofNat c.toNat

/-- The characters that stand for the bytes of a string. -/
def ofString (s : String) : Chars := ofBytes (Text.Utf8.bytes s)

/-- The string in the bytes that characters stand for. -/
def string (s : Chars) : String := Text.Utf8.lossy (toBytes s)

end Chars

/-- Characters joined by a separator. -/
def joinWith (separator : Chars) : List Chars → Chars
  | [] => []
  | [s] => s
  | s :: rest => s ++ separator ++ joinWith separator rest

/-- The pieces of a text at a separator, with a piece that is not complete yet and those before it,
both in reverse. -/
def piecesOnto (separator : Char) (current : Chars) (done : List Chars) : Chars → List Chars
  | [] => (current.reverse :: done).reverse
  | c :: rest =>
    if c = separator then piecesOnto separator [] (current.reverse :: done) rest
    else piecesOnto separator (c :: current) done rest

/-- The pieces of a text between the occurrences of a character. -/
def pieces (separator : Char) (s : Chars) : List Chars := piecesOnto separator [] [] s

/-- The lines of a text without their line feeds.  What follows the last line feed is a line unless
it is empty. -/
def linesOf (s : Chars) : List Chars :=
  let all := pieces '\n' s
  if all.getLast? = some [] then all.dropLast else all

/-- Lines with a line feed behind each. -/
def unlines (lines : List Chars) : Chars := lines.flatMap (· ++ ['\n'])

/-- The digits of a number. -/
def number (n : Nat) : Chars := Text.Numeral.write 10 n

/-- The digits of an integer. -/
def integer (n : Int) : Chars := if n < 0 then '-' :: number n.natAbs else number n.natAbs

/-- The number that digits stand for. -/
def number? (s : Chars) : Option Nat := Text.Numeral.read? 10 s

/-- The integer that a text stands for, blanks in front allowed. -/
def integer? (s : Chars) : Option Int :=
  match s.dropWhile fun c ↦ c = ' ' || c = '\t' || c = '\n' with
  | '-' :: ds => (number? ds).map fun n ↦ -(n : Int)
  | '+' :: ds => (number? ds).map fun n ↦ (n : Int)
  | ds => (number? ds).map fun n ↦ (n : Int)

/-- What a text is without a beginning, if it has that. -/
def without? (start : Chars) (s : Chars) : Option Chars :=
  if start.isPrefixOf s then some (s.drop start.length) else none

end Shell
end FirmwareLane
