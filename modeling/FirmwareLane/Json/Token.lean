import FirmwareLane.Json.Basic
import FirmwareLane.Text.Numeral
import FirmwareLane.Text.Utf8

/-!
# Tokens of JSON text

JSON text cut into brackets, separators and scalars.  `Token.scan` goes on as long as the text
makes sense and ends with a mark where it does not, so the tokens in front of that place are there
to be used.
-/

set_option autoImplicit false
namespace FirmwareLane
namespace Json

open Text (Glyph)

/-- A piece of JSON text. -/
inductive Token where
  | openArray | closeArray | openObject | closeObject | colon | comma
  | null
  | bool (b : Bool)
  | integer (n : Int)
  | float (x : Binary64)
  | hugeNumber
  /-- A quoted text; none if it encodes no sequence of characters. -/
  | text (s : Option String)
  /-- No token begins here. -/
  | fault
  deriving DecidableEq, Repr

namespace Token

/-! ## Numbers -/

/-- The digits at the front of a text, and the rest. -/
def digits : List Glyph → List Nat × List Glyph
  | some c :: rest =>
    if '0' ≤ c ∧ c ≤ '9' then
      let (ds, tail) := digits rest
      ((c.toNat - '0'.toNat) :: ds, tail)
    else ([], some c :: rest)
  | tail => ([], tail)

/-- The number that decimal digits stand for. -/
def decimalValue (ds : List Nat) : Nat := ds.foldl (fun n d ↦ 10 * n + d) 0

/-- The greatest significand that is kept exactly. -/
def greatestSignificand : Nat := Nat.pow 2 64 - 1

/-- A significand with digits appended as long as it does not become too large, and the digits left
over. -/
def significand : Nat → List Nat → Nat × List Nat
  | s, [] => (s, [])
  | s, d :: rest =>
    if greatestSignificand < 10 * s + d then (s, d :: rest) else significand (10 * s + d) rest

/-- The parts of a number as written. -/
structure NumberParts where
  negative : Bool
  whole : List Nat
  fraction : List Nat
  /-- The sign and the digits of the exponent, if there is one. -/
  exponent : Option (Bool × List Nat)
  /-- There is a point or an exponent. -/
  isDecimal : Bool

/-- The value of a floating point number with these parts.  Digits past the greatest significand
only count as powers of ten in the whole part, and not at all in the fraction. -/
def NumberParts.float? (p : NumberParts) : Option Binary64 :=
  let (s, dropped) := significand 0 p.whole
  let (s, ignored) := significand s p.fraction
  let power : Int := (dropped.length : Int) - ((p.fraction.length - ignored.length : Nat) : Int)
  match p.exponent with
  | none => Binary64.ofDecimal? p.negative s power
  | some (negativeExponent, ds) =>
    let e := decimalValue ds
    if e < Nat.pow 2 31 then
      Binary64.ofDecimal? p.negative s (if negativeExponent then power - e else power + e)
    else if s = 0 ∨ negativeExponent then some (Binary64.zero p.negative)
    else none

/-- The token of a number with these parts.  A number without point and exponent is an integer if
it is in range; minus zero is a floating point number. -/
def NumberParts.token (p : NumberParts) : Token :=
  let asFloat := match p.float? with
    | some x => Token.float x
    | none => .hugeNumber
  let n := decimalValue p.whole
  if p.isDecimal then asFloat
  else if p.negative then
    if n = 0 ∨ Nat.pow 2 63 < n then asFloat else .integer (-(n : Int))
  else if n ≤ greatestSignificand then .integer n
  else asFloat

/-- The exponent at the front of a text: none if there is no exponent, and a fault if there is only
the beginning of one. -/
def exponent? : List Glyph → Option (Option (Bool × List Nat) × List Glyph)
  | some c :: rest =>
    if c = 'e' ∨ c = 'E' then
      let (negative, rest) := match rest with
        | some '+' :: rest => (false, rest)
        | some '-' :: rest => (true, rest)
        | rest => (false, rest)
      let (ds, tail) := digits rest
      if ds.isEmpty then none else some (some (negative, ds), tail)
    else some (none, some c :: rest)
  | tail => some (none, tail)

/-- The number at the front of a text whose sign is already read. -/
def number? (negative : Bool) (s : List Glyph) : Option (Token × List Glyph) :=
  let (whole, rest) := digits s
  if whole.isEmpty ∨ (whole.head? = some 0 ∧ 1 < whole.length) then none
  else
    match rest with
    | some '.' :: rest =>
      let (fraction, rest) := digits rest
      if fraction.isEmpty then none
      else (exponent? rest).map fun (e, tail) ↦
        (NumberParts.token ⟨negative, whole, fraction, e, true⟩, tail)
    | rest =>
      (exponent? rest).map fun (e, tail) ↦
        (NumberParts.token ⟨negative, whole, [], e, e.isSome⟩, tail)

/-! ## Quoted text -/

/-- The value of four hexadecimal digits at the front of a text, and the rest. -/
def hex4? : List Glyph → Option (Nat × List Glyph)
  | some a :: some b :: some c :: some d :: rest =>
    match Text.Numeral.read? 16 [a, b, c, d] with
    | some n => some (n, rest)
    | none => none
  | _ => none

/-- The character of a simple escape. -/
def simpleEscape? : Char → Option Char
  | '"' => some '"'
  | '\\' => some '\\'
  | '/' => some '/'
  | 'b' => some '\x08'
  | 'f' => some '\x0c'
  | 'n' => some '\n'
  | 'r' => some '\r'
  | 't' => some '\t'
  | _ => none

/-- Whether a number is the first half of a surrogate pair. -/
def isHighSurrogate (n : Nat) : Bool := 0xD800 ≤ n && n ≤ 0xDBFF

/-- Whether a number is the second half of a surrogate pair. -/
def isLowSurrogate (n : Nat) : Bool := 0xDC00 ≤ n && n ≤ 0xDFFF

/-- A piece of quoted text: what it stands for, with a gap where that is no character, and what
follows it. -/
inductive Piece where
  | glyph (g : Glyph) (rest : List Glyph)
  | finish (rest : List Glyph)
  | fault

/-- The piece at the front of a quoted text. -/
def piece : List Glyph → Piece
  | [] => .fault
  | none :: rest => .glyph none rest
  | some '"' :: rest => .finish rest
  | some '\\' :: some 'u' :: rest =>
    match hex4? rest with
    | none => .fault
    | some (n, rest) =>
      if isHighSurrogate n then
        match rest with
        | some '\\' :: some 'u' :: more =>
          match hex4? more with
          | some (m, tail) =>
            if isLowSurrogate m then
              .glyph (some (Char.ofNat (0x10000 + (n - 0xD800) * 0x400 + (m - 0xDC00)))) tail
            else .glyph none rest
          | none => .glyph none rest
        | _ => .glyph none rest
      else if isLowSurrogate n then .glyph none rest
      else .glyph (some (Char.ofNat n)) rest
  | some '\\' :: some c :: rest =>
    match simpleEscape? c with
    | some e => .glyph (some e) rest
    | none => .fault
  | some '\\' :: _ => .fault
  | some c :: rest => if c.toNat < 0x20 then .fault else .glyph (some c) rest

/-- The glyphs of a quoted text behind its opening mark, in reverse in front of those already read,
and what follows the closing mark.  The text is left if it breaks off or an escape is none. -/
def quoted? : Nat → List Glyph → List Glyph → Option (List Glyph × List Glyph)
  | 0, _, _ => none
  | fuel + 1, done, s =>
    match piece s with
    | .fault => none
    | .finish rest => some (done, rest)
    | .glyph g rest => quoted? fuel (g :: done) rest

/-- The token of a quoted text with these glyphs in reverse. -/
def ofGlyphs (reversed : List Glyph) : Token :=
  .text ((reversed.reverse.mapM id).map String.ofList)

/-! ## All tokens -/

/-- A text without a word at its front, if it has it there. -/
def dropWord? : List Char → List Glyph → Option (List Glyph)
  | [], s => some s
  | _ :: _, [] => none
  | c :: word, g :: rest => if g = some c then dropWord? word rest else none

/-- The token of a word, if the text begins with it. -/
def wordToken? (word : String) (token : Token) (s : List Glyph) : Option (Token × List Glyph) :=
  (dropWord? word.toList s).map fun rest ↦ (token, rest)

/-- The token that begins with a character, and what follows it. -/
def next? (c : Char) (rest : List Glyph) : Option (Token × List Glyph) :=
  if c = '[' then some (.openArray, rest)
  else if c = ']' then some (.closeArray, rest)
  else if c = '\x7b' then some (.openObject, rest)
  else if c = '\x7d' then some (.closeObject, rest)
  else if c = ':' then some (.colon, rest)
  else if c = ',' then some (.comma, rest)
  else if c = 'n' then wordToken? "ull" .null rest
  else if c = 't' then wordToken? "rue" (.bool true) rest
  else if c = 'f' then wordToken? "alse" (.bool false) rest
  else if c = '"' then
    (quoted? (rest.length + 1) [] rest).map fun (reversed, tail) ↦ (ofGlyphs reversed, tail)
  else if c = '-' then number? true rest
  else if '0' ≤ c ∧ c ≤ '9' then number? false (some c :: rest)
  else none

/-- Whether a character separates tokens and has no meaning of its own. -/
def isSpace (c : Char) : Bool := c = ' ' || c = '\n' || c = '\t' || c = '\r'

/-- The tokens of a text, with a fault where it breaks off; fuel for one step per character. -/
def scanWith : Nat → List Glyph → List Token
  | 0, _ => [.fault]
  | _ + 1, [] => []
  | _ + 1, none :: _ => [.fault]
  | fuel + 1, some c :: rest =>
    if isSpace c then scanWith fuel rest
    else
      match next? c rest with
      | none => [.fault]
      | some (token, tail) => token :: scanWith fuel tail

/-- The tokens of a text, with a fault where it breaks off. -/
def scan (s : List Glyph) : List Token := scanWith (s.length + 1) s

end Token
end Json
end FirmwareLane
