/-!
# Blanks and lines

The characters that count as blank, cutting them off both ends of a text, and cutting a text into
its lines.  Every reader of the library that skips space uses the one class `isBlank`, so a text
that survives one of them untouched survives all of them.
-/

set_option autoImplicit false
namespace FirmwareLane
namespace Text

/-! ## Blanks -/

/-- The characters with the property `White_Space`. -/
def isBlank (c : Char) : Bool :=
  let n := c.toNat
  (9 ≤ n && n ≤ 13) || n == 0x20 || n == 0x85 || n == 0xA0 || n == 0x1680 ||
    (0x2000 ≤ n && n ≤ 0x200A) || n == 0x2028 || n == 0x2029 || n == 0x202F || n == 0x205F ||
    n == 0x3000

/-- The text without the blanks it begins with. -/
def trimStart (s : List Char) : List Char :=
  s.dropWhile isBlank

/-- The text without the blanks it ends with. -/
def trimEnd (s : List Char) : List Char :=
  (s.reverse.dropWhile isBlank).reverse

/-- The text without the blanks at either end. -/
def trim (s : List Char) : List Char :=
  trimEnd (trimStart s)

/-- `trim` for a `String`. -/
def trimmed (s : String) : String :=
  String.ofList (trim s.toList)

/-! ## Lines -/

/-- The lines of a text.  A line ends at a line feed, which is not part of it, and neither is one
carriage return just before the line feed; what follows the last line feed is a line unless it is
empty. -/
def lines : List Char → List (List Char)
  | [] => []
  | '\n' :: rest => [] :: lines rest
  | '\r' :: '\n' :: rest => [] :: lines rest
  | c :: rest =>
    match lines rest with
    | [] => [[c]]
    | line :: more => (c :: line) :: more

/-! ## Line ends

Text travels with lines that end in a line feed alone. -/

/-- The text with a line feed for every carriage return that a line feed follows, and that line
feed.  A carriage return that comes to stand before a line feed in this way stays. -/
def toLineFeeds : List Char → List Char
  | [] => []
  | '\r' :: '\n' :: rest => '\n' :: toLineFeeds rest
  | c :: rest => c :: toLineFeeds rest

/-- The string with a line feed for every carriage return and line feed. -/
def withLineFeeds (s : String) : String := String.ofList (toLineFeeds s.toList)

/-! ## Pieces between separators -/

/-- The pieces of a text between the occurrences of a character: one more than it occurs. -/
def splitOn (separator : Char) : List Char → List (List Char)
  | [] => [[]]
  | c :: rest =>
    if c = separator then [] :: splitOn separator rest
    else
      match splitOn separator rest with
      | [] => [[c]]
      | piece :: more => (c :: piece) :: more

/-- What stands before the first occurrence of a character and what stands after it, if it occurs
at all. -/
def cutAt? (mark : Char) : List Char → Option (List Char × List Char)
  | [] => none
  | c :: rest =>
    if c = mark then some ([], rest)
    else (cutAt? mark rest).map fun (before, after) => (c :: before, after)

/-- The text without a final character, if it ends in that character. -/
def dropLast? (mark : Char) (s : List Char) : Option (List Char) :=
  match s.reverse with
  | [] => none
  | c :: front => if c = mark then some front.reverse else none

/-! ## Small facts -/

theorem splitOn_ne_nil (separator : Char) (s : List Char) : splitOn separator s ≠ [] := by
  cases s with
  | nil => simp [splitOn]
  | cons c rest =>
    simp only [splitOn]
    split
    · simp
    · split <;> simp

end Text
end FirmwareLane
