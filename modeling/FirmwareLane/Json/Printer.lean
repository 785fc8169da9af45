import FirmwareLane.Json.Basic
import FirmwareLane.Number.Shortest

/-!
# JSON text

The text of a value, on one line without blanks (`Json.print`) or with every item and member on a
line of its own (`Json.pretty`).  In a quoted text a quotation mark, a backslash and the control
characters are escaped and nothing else is, so no line feed ever stands in the text of a value.
-/

set_option autoImplicit false
namespace FirmwareLane
namespace Json

/-! ## Quoted text -/

/-- The escape of a character that cannot stand for itself in a quoted text, or the character. -/
def escaped (c : Char) : List Char :=
  if c = '"' then ['\\', '"']
  else if c = '\\' then ['\\', '\\']
  else if c = '\n' then ['\\', 'n']
  else if c = '\r' then ['\\', 'r']
  else if c = '\t' then ['\\', 't']
  else if c = '\x08' then ['\\', 'b']
  else if c = '\x0c' then ['\\', 'f']
  else if c.toNat < 0x20 then '\\' :: 'u' :: Text.Numeral.writePadded 16 4 c.toNat
  else [c]

/-- A text in quotation marks. -/
def quoted (s : String) : List Char :=
  '"' :: s.toList.flatMap escaped ++ ['"']

/-! ## One line -/

/-- The text of an integer. -/
def integerText (n : Int) : List Char := (Text.Numeral.integer n).toList

mutual

/-- The text of a value on one line. -/
def chars : Json → List Char
  | null => "null".toList
  | bool true => "true".toList
  | bool false => "false".toList
  | integer n => integerText n
  | float x => x.render
  | text s => quoted s
  | array [] => ['[', ']']
  | array (item :: rest) => '[' :: (item.chars ++ itemsTail rest)
  | object [] => ['\x7b', '\x7d']
  | object ((name, value) :: rest) =>
    '\x7b' :: (quoted name ++ ':' :: (value.chars ++ membersTail rest))

/-- The text of the items after the first one, with the closing bracket. -/
def itemsTail : List Json → List Char
  | [] => [']']
  | item :: rest => ',' :: (item.chars ++ itemsTail rest)

/-- The text of the members after the first one, with the closing brace. -/
def membersTail : List (String × Json) → List Char
  | [] => ['\x7d']
  | (name, value) :: rest => ',' :: (quoted name ++ ':' :: (value.chars ++ membersTail rest))

end

/-- The text of a value on one line. -/
def print (value : Json) : String := String.ofList value.chars

/-! ## Many lines -/

/-- A line feed and two blanks for every level. -/
def indentation (level : Nat) : List Char := '\n' :: List.replicate (2 * level) ' '

mutual

/-- The text of a value at a level of indentation, an item or member on a line. -/
def prettyChars (level : Nat) : Json → List Char
  | array (item :: rest) =>
    '[' :: (indentation (level + 1) ++ item.prettyChars (level + 1) ++ prettyItems level rest)
  | object ((name, value) :: rest) =>
    '\x7b' :: (indentation (level + 1) ++ quoted name ++ ':' :: ' ' ::
      (value.prettyChars (level + 1) ++ prettyMembers level rest))
  | other => other.chars

/-- The text of the items after the first one, with the closing bracket. -/
def prettyItems (level : Nat) : List Json → List Char
  | [] => indentation level ++ [']']
  | item :: rest =>
    ',' :: (indentation (level + 1) ++ item.prettyChars (level + 1) ++ prettyItems level rest)

/-- The text of the members after the first one, with the closing brace. -/
def prettyMembers (level : Nat) : List (String × Json) → List Char
  | [] => indentation level ++ ['\x7d']
  | (name, value) :: rest =>
    ',' :: (indentation (level + 1) ++ quoted name ++ ':' :: ' ' ::
      (value.prettyChars (level + 1) ++ prettyMembers level rest))

end

/-- The text of a value with every item and member on a line of its own. -/
def pretty (value : Json) : String := String.ofList (value.prettyChars 0)

end Json
end FirmwareLane
