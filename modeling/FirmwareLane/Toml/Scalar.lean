import FirmwareLane.Json.Basic
import FirmwareLane.Text.Numeral
import FirmwareLane.Time.Timestamp

/-!
# Scalars of TOML

Quoted texts in their four forms, numbers, truth values and dates.  Every reader here takes a text
and gives what stands at its front and the rest, or nothing if no such thing stands there.

A date is given as an object with one member under a name that nobody chooses, so that it is not
taken for a text.
-/

set_option autoImplicit false
namespace FirmwareLane
namespace Toml

/-! ## Characters -/

/-- Whether a character is a blank inside a line. -/
def isSpace (c : Char) : Bool := c = ' ' || c = '\t'

/-- The text without the blanks it begins with. -/
def skipSpace (s : List Char) : List Char := s.dropWhile isSpace

/-- What follows a line end, if the text begins with one. -/
def newline? : List Char → Option (List Char)
  | '\n' :: rest => some rest
  | '\r' :: '\n' :: rest => some rest
  | _ => none

/-- Whether a character may stand in a comment or a quoted text. -/
def isPlain (c : Char) : Bool := c = '\t' || (0x20 ≤ c.toNat && c.toNat ≠ 0x7F)

/-- Whether a character may stand in a name without quotation marks. -/
def isBare (c : Char) : Bool := c.isAlphanum || c = '_' || c = '-'

/-! ## Quoted texts -/

/-- The character that so many hexadecimal digits at the front stand for. -/
def codePoint? (width : Nat) (s : List Char) : Option (Char × List Char) :=
  let digits := s.take width
  if digits.length < width then none
  else
    match Text.Numeral.read? 16 digits with
    | some n =>
      if n < 0xD800 ∨ (0xDFFF < n ∧ n < 0x110000) then some (Char.ofNat n, s.drop width) else none
    | none => none

/-- The character of an escape behind its backslash. -/
def escape? : List Char → Option (Char × List Char)
  | 'b' :: rest => some ('\x08', rest)
  | 't' :: rest => some ('\t', rest)
  | 'n' :: rest => some ('\n', rest)
  | 'f' :: rest => some ('\x0c', rest)
  | 'r' :: rest => some ('\r', rest)
  | '"' :: rest => some ('"', rest)
  | '\\' :: rest => some ('\\', rest)
  | 'u' :: rest => codePoint? 4 rest
  | 'U' :: rest => codePoint? 8 rest
  | _ => none

/-- The rest of a quoted text on one line, in front of which the given characters stand in reverse;
fuel for one step per character. -/
def basicText : Nat → List Char → List Char → Option (String × List Char)
  | 0, _, _ => none
  | _ + 1, _, [] => none
  | fuel + 1, done, c :: rest =>
    if c = '"' then some (String.ofList done.reverse, rest)
    else if c = '\\' then
      match escape? rest with
      | some (e, tail) => basicText fuel (e :: done) tail
      | none => none
    else if isPlain c then basicText fuel (c :: done) rest
    else none

/-- A text between apostrophes, in which nothing is escaped. -/
def literalText (s : List Char) : Option (String × List Char) :=
  let body := s.takeWhile fun c ↦ c != '\'' && isPlain c
  match s.drop body.length with
  | '\'' :: rest => some (String.ofList body, rest)
  | _ => none

/-- The text without the blanks and line ends it begins with. -/
def skipMargin : List Char → List Char
  | '\r' :: '\n' :: rest => skipMargin rest
  | c :: rest => if isSpace c || c = '\n' then skipMargin rest else c :: rest
  | [] => []

/-- What follows the blanks and line ends behind a backslash that ends a line. -/
def afterFold (s : List Char) : Option (List Char) := (newline? (skipSpace s)).map skipMargin

/-- Up to two marks that belong to a text, in front of the three marks that end it. -/
def closing? (mark : Char) (s : List Char) : Option (List Char × List Char) :=
  let marks := (s.take 5).takeWhile (· == mark)
  if marks.length < 3 then none else some (marks.drop 3, s.drop marks.length)

/-- The rest of a quoted text over several lines, in which a backslash at the end of a line joins it
to the next one. -/
def longBasicText : Nat → List Char → List Char → Option (String × List Char)
  | 0, _, _ => none
  | fuel + 1, done, s =>
    match closing? '"' s with
    | some (marks, rest) => some (String.ofList (done.reverse ++ marks), rest)
    | none =>
      match newline? s with
      | some rest => longBasicText fuel ('\n' :: done) rest
      | none =>
        match s with
        | [] => none
        | '\\' :: rest =>
          match afterFold rest with
          | some tail => longBasicText fuel done tail
          | none =>
            match escape? rest with
            | some (e, tail) => longBasicText fuel (e :: done) tail
            | none => none
        | c :: rest => if isPlain c then longBasicText fuel (c :: done) rest else none

/-- The rest of a text between triple apostrophes. -/
def longLiteralText : Nat → List Char → List Char → Option (String × List Char)
  | 0, _, _ => none
  | fuel + 1, done, s =>
    match closing? '\'' s with
    | some (marks, rest) => some (String.ofList (done.reverse ++ marks), rest)
    | none =>
      match newline? s with
      | some rest => longLiteralText fuel ('\n' :: done) rest
      | none =>
        match s with
        | [] => none
        | c :: rest => if isPlain c then longLiteralText fuel (c :: done) rest else none

/-- The text without one line end at its front. -/
def dropNewline (s : List Char) : List Char := (newline? s).getD s

/-- A quoted text in any of the four forms. -/
def text? : List Char → Option (String × List Char)
  | '"' :: '"' :: '"' :: rest => longBasicText (rest.length + 1) [] (dropNewline rest)
  | '\'' :: '\'' :: '\'' :: rest => longLiteralText (rest.length + 1) [] (dropNewline rest)
  | '"' :: rest => basicText (rest.length + 1) [] rest
  | '\'' :: rest => literalText rest
  | _ => none

/-! ## Numbers -/

/-- Digits of a base with single underscores between them, and the rest.  A character that is
neither ends them. -/
def digits? (base : Nat) (s : List Char) : Option (List Char × List Char) :=
  let isDigit (c : Char) := (Text.Numeral.digitIn? base c).isSome
  let run := s.takeWhile fun c ↦ isDigit c || c = '_'
  let pieces := Text.splitOn '_' run
  if pieces.any List.isEmpty then none else some (pieces.flatten, s.drop run.length)

/-- Decimal digits without a needless zero at the front. -/
def whole? (s : List Char) : Option (List Char × List Char) :=
  match digits? 10 s with
  | some (ds, rest) => if ds.head? = some '0' ∧ 1 < ds.length then none else some (ds, rest)
  | none => none

/-- The sign of a number, and the rest. -/
def sign : List Char → Bool × List Char
  | '-' :: rest => (true, rest)
  | '+' :: rest => (false, rest)
  | rest => (false, rest)

/-- An integer in range. -/
def integer? (n : Int) : Option Json :=
  if -(Nat.pow 2 63) ≤ n ∧ n < Nat.pow 2 63 then some (.integer n) else none

/-- An integer in one of the bases that have a mark. -/
def marked? (base : Nat) (s : List Char) : Option (Json × List Char) := do
  let (ds, rest) ← digits? base s
  let n ← Text.Numeral.read? base ds
  return (← integer? n, rest)

/-- The fraction behind a point, if there is one. -/
def fraction? : List Char → Option (Option (List Char) × List Char)
  | '.' :: rest => (digits? 10 rest).map fun (ds, tail) ↦ (some ds, tail)
  | rest => some (none, rest)

/-- The exponent, if there is one. -/
def exponent? : List Char → Option (Option Int × List Char)
  | c :: rest =>
    if c = 'e' ∨ c = 'E' then do
      let (negative, rest) := sign rest
      let (ds, tail) ← digits? 10 rest
      let n ← Text.Numeral.read? 10 ds
      return (some (if negative then -(n : Int) else n), tail)
    else some (none, c :: rest)
  | [] => some (none, [])

/-- The floating point number of decimal digits and a power of ten; too large a positive one is
none. -/
def float? (negative : Bool) (ds : List Char) (power : Int) : Option Json := do
  let n ← Text.Numeral.read? 10 ds
  let zero := Json.float (Binary64.zero negative)
  if n = 0 ∨ power + ds.length < -400 then return zero
  else if 400 < power + (Text.Numeral.write 10 n).length then
    if negative then return zero else none
  else
    match Binary64.ofRatio? negative (n * Nat.pow 10 power.toNat) (Nat.pow 10 (-power).toNat) with
    | some x => return .float x
    | none => if negative then return zero else none

/-- What follows a word, if the text begins with it. -/
def afterWord? (word : String) (s : List Char) : Option (List Char) :=
  if s.take word.toList.length = word.toList then some (s.drop word.toList.length) else none

/-- A decimal number, or one of the words for what is no number. -/
def decimal? (s : List Char) : Option (Json × List Char) := do
  let (negative, body) := sign s
  match afterWord? "inf" body <|> afterWord? "nan" body with
  | some rest => return (.float (Binary64.zero negative), rest)
  | none => do
    let (ds, rest) ← whole? body
    let (fraction, rest) ← fraction? rest
    let (exponent, rest) ← exponent? rest
    match fraction, exponent with
    | none, none => do
      let n ← Text.Numeral.read? 10 ds
      return (← integer? (if negative then -(n : Int) else n), rest)
    | _, _ => do
      let places := fraction.getD []
      return (← float? negative (ds ++ places) (exponent.getD 0 - places.length), rest)

/-- A number in any notation. -/
def number? : List Char → Option (Json × List Char)
  | '0' :: 'x' :: rest => marked? 16 rest
  | '0' :: 'o' :: rest => marked? 8 rest
  | '0' :: 'b' :: rest => marked? 2 rest
  | s => decimal? s

/-! ## Dates and times -/

/-- A number of exactly so many digits between two bounds. -/
def fixed? (width least greatest : Nat) (s : List Char) : Option (Nat × List Char) :=
  let ds := s.take width
  if ds.length = width ∧ ds.all Char.isDigit then
    match Text.Numeral.read? 10 ds with
    | some n => if least ≤ n ∧ n ≤ greatest then some (n, s.drop width) else none
    | none => none
  else none

/-- What follows a character, if the text begins with it. -/
def after? (c : Char) : List Char → Option (List Char)
  | d :: rest => if d = c then some rest else none
  | [] => none

/-- What follows a date. -/
def afterDate? (s : List Char) : Option (List Char) := do
  let (year, s) ← fixed? 4 0 9999 s
  let (month, s) ← fixed? 2 1 12 (← after? '-' s)
  let (_, s) ← fixed? 2 1 (Timestamp.daysInMonth year month) (← after? '-' s)
  return s

/-- What follows a time of day. -/
def afterTime? (s : List Char) : Option (List Char) := do
  let (_, s) ← fixed? 2 0 23 s
  let (_, s) ← fixed? 2 0 59 (← after? ':' s)
  let (_, s) ← fixed? 2 0 60 (← after? ':' s)
  match s with
  | '.' :: c :: rest => if c.isDigit then return rest.dropWhile Char.isDigit else none
  | s => return s

/-- What follows an offset from universal time, which may be missing. -/
def afterOffset? : List Char → Option (List Char)
  | [] => some []
  | c :: rest =>
    if c = 'Z' ∨ c = 'z' then some rest
    else if c = '+' ∨ c = '-' then do
      let (_, s) ← fixed? 2 0 23 rest
      let (_, s) ← fixed? 2 0 59 (← after? ':' s)
      return s
    else some (c :: rest)

/-- What follows a date with a time of day, a date, or a time of day. -/
def afterDateTime? (s : List Char) : Option (List Char) :=
  match afterDate? s with
  | none => afterTime? s
  | some rest =>
    match rest with
    | c :: tail =>
      if c = 'T' ∨ c = 't' then afterTime? tail >>= afterOffset?
      else if c = ' ' ∧ (tail.head?.map Char.isDigit).getD false then
        afterTime? tail >>= afterOffset?
      else some rest
    | [] => some []

/-- A date or time, as an object that is no text. -/
def dateTime? (s : List Char) : Option (Json × List Char) :=
  (afterDateTime? s).map fun rest ↦
    (.object [("$date", .text (String.ofList (s.take (s.length - rest.length))))], rest)

/-! ## All scalars -/

/-- Whether a text looks like a date or a time of day. -/
def looksDated (s : List Char) : Bool :=
  let ds := s.takeWhile Char.isDigit
  match s.drop ds.length with
  | c :: _ => (ds.length == 4 && c == '-') || (ds.length == 2 && c == ':')
  | [] => false

/-- A scalar of any kind. -/
def scalar? (s : List Char) : Option (Json × List Char) :=
  match s with
  | [] => none
  | c :: _ =>
    if c = '"' ∨ c = '\'' then (text? s).map fun (t, rest) ↦ (.text t, rest)
    else if c = 't' then (afterWord? "true" s).map fun rest ↦ (.bool true, rest)
    else if c = 'f' then (afterWord? "false" s).map fun rest ↦ (.bool false, rest)
    else if looksDated s then dateTime? s
    else number? s

end Toml
end FirmwareLane
