import FirmwareLane.Shell.Text

/-!
# Names in messages

How programs show the names and values that they complain about.  A text is shown as a word that a
shell reads as that text, so that its blanks and marks are seen for what they are; or between marks
with its odd characters escaped.
-/

set_option autoImplicit false
namespace FirmwareLane
namespace Shell
namespace Quotation

/-! ## Characters -/

/-- The letter of the escape that a character has. -/
def letter? : Char → Option Char
  | '\x07' => some 'a'
  | '\x08' => some 'b'
  | '\t' => some 't'
  | '\n' => some 'n'
  | '\x0b' => some 'v'
  | '\x0c' => some 'f'
  | '\r' => some 'r'
  | _ => none

/-- Whether a character has a mark of its own. -/
def isPrintable (c : Char) : Bool := ' ' ≤ c && c ≤ '~'

/-- The escape of a character without a mark of its own. -/
def escape (c : Char) : Chars :=
  match letter? c with
  | some letter => ['\\', letter]
  | none => '\\' :: Text.Numeral.writePadded 8 3 c.toNat

/-- A text with its odd characters escaped, and with a backslash before those of some others. -/
def escaped (others : Chars) (s : Chars) : Chars :=
  s.flatMap fun c ↦
    if !isPrintable c then escape c
    else if c = '\\' || others.contains c then ['\\', c]
    else [c]

/-! ## Words -/

/-- Whether a shell sees more in a character than the character, wherever it stands. -/
def isSpecial (c : Char) : Bool := !isPrintable c || " !\"$&'()*;<=>?[\\^\x60|".toList.contains c

/-- Whether a shell would see more in a text than the text. -/
def isOdd (s : Chars) : Bool :=
  s.isEmpty || s.any isSpecial || s == ['\x7b'] || s == ['\x7d'] ||
    s.head? == some '#' || s.head? == some '~'

/-- Whether a text with an apostrophe can stand between double marks as it is. -/
def isPlainApart (s : Chars) : Bool :=
  let isPlain (c : Char) : Bool := c.isAlphanum || "'% +,-./:]_@".toList.contains c
  match s with
  | [] => true
  | c :: rest => (isPlain c || c = '#' || c = '~') && rest.all isPlain

/-- The rest of a word between single marks; whether what stands before it is the escape of an odd
character, which has marks of its own. -/
def inMarks : Bool → Chars → Chars
  | _, [] => ['\'']
  | isEscape, c :: rest =>
    if c = '\'' then "'\\''".toList ++ inMarks false rest
    else if isPrintable c then (if isEscape then "''".toList else []) ++ c :: inMarks false rest
    else (if isEscape then [] else "'$'".toList) ++ escape c ++ inMarks true rest

/-- A text as a word between marks. -/
def word (s : Chars) : Chars :=
  if s.contains '\'' && isPlainApart s then '"' :: s ++ ['"'] else '\'' :: inMarks false s

end Quotation

namespace Chars

/-- A text as a word between marks. -/
def quoted (s : Chars) : String := string (Quotation.word s)

/-- A text as it is, or as a word between marks if a shell or whoever looks for colons would see more
in it. -/
def shown (s : Chars) : String :=
  if Quotation.isOdd s || s.contains ':' then s.quoted else s.string

/-- A text between marks, with its odd characters escaped. -/
def marked (s : Chars) : String := string ('\'' :: Quotation.escaped ['\''] s ++ ['\''])

end Chars
end Shell
end FirmwareLane
