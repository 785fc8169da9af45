import FirmwareLane.Number.Places
import FirmwareLane.Shell.Text

/-!
# Formats

How a shell prints its arguments: escapes that stand for characters, and directives that stand for
arguments in a given form.
-/

set_option autoImplicit false
namespace FirmwareLane
namespace Shell
namespace Format

/-- What is wrong with a format or with an argument. -/
inductive Fault where
  | noNumber (text : Chars)
  | notWhole (text : Chars)
  | outOfRange (text : Chars)
  | unknownDirective (text : Chars)
  | noDirective
  deriving DecidableEq, Repr

/-- The wording of a fault. -/
def Fault.message : Fault → String
  | .noNumber text => text.string ++ ": expected numeric value"
  | .notWhole text => text.string ++ ": not completely converted"
  | .outOfRange text => text.string ++ ": Numerical result out of range"
  | .unknownDirective text => text.string ++ ": invalid directive"
  | .noDirective => "missing format character"

/-- Whether a fault is in the format. -/
def Fault.isInFormat : Fault → Bool
  | .unknownDirective _ => true
  | .noDirective => true
  | _ => false

/-- The number that some digits to a base stand for, reduced to a byte. -/
def byteOf (digits : Chars) : Char := Char.ofNat ((Text.Numeral.read? 8 digits).getD 0 % 256)

/-- The octal digits at the front, at most so many. -/
def octal (most : Nat) (s : Chars) : Chars := (s.take most).takeWhile fun c ↦ '0' ≤ c && c ≤ '7'

/-- The character that an escape stands for, given what follows the backslash, and the rest. -/
def escape (s : Chars) : Char × Chars :=
  match s with
  | 'a' :: rest => ('\x07', rest)
  | 'b' :: rest => ('\x08', rest)
  | 'e' :: rest => ('\x1b', rest)
  | 'f' :: rest => ('\x0c', rest)
  | 'n' :: rest => ('\n', rest)
  | 'r' :: rest => ('\r', rest)
  | 't' :: rest => ('\t', rest)
  | 'v' :: rest => ('\x0b', rest)
  | '\\' :: rest => ('\\', rest)
  | s =>
    let ds := octal 3 s
    if ds.isEmpty then ('\\', s) else (byteOf ds, s.drop ds.length)

/-- A text with its escapes replaced, behind text in reverse, and whether an escape ended all
output; fuel for one step per character. -/
def unescapeOnto : Nat → Chars → Chars → Chars × Bool
  | 0, done, _ => (done.reverse, false)
  | _, done, [] => (done.reverse, false)
  | fuel + 1, done, '\\' :: s =>
    match s with
    | 'c' :: _ => (done.reverse, true)
    | '0' :: rest =>
      let ds := octal 3 rest
      unescapeOnto fuel (byteOf ds :: done) (rest.drop ds.length)
    | s =>
      let (c, rest) := escape s
      unescapeOnto fuel (c :: done) rest
  | fuel + 1, done, c :: rest => unescapeOnto fuel (c :: done) rest

/-- A text with its escapes replaced, and whether an escape ended all output. -/
def unescape (s : Chars) : Chars × Bool := unescapeOnto (s.length + 1) [] s

/-! ## Numbers -/

/-- How an argument is printed. -/
structure Directive where
  left : Bool
  plus : Bool
  space : Bool
  zero : Bool
  alternate : Bool
  width : Nat
  precision : Option Nat

/-- A text padded to a width. -/
def Directive.pad (d : Directive) (s : Chars) : Chars :=
  let fill := List.replicate (d.width - s.length) ' '
  if d.left then s ++ fill else fill ++ s

/-- Digits with a mark in front, padded to a width with zeros if that is asked for. -/
def Directive.padMarked (d : Directive) (zero : Bool) (mark digits : Chars) : Chars :=
  if zero && !d.left then
    mark ++ List.replicate (d.width - mark.length - digits.length) '0' ++ digits
  else d.pad (mark ++ digits)

/-- The digits of an integer with a mark in front, padded to a width. -/
def Directive.padInteger (d : Directive) (mark digits : Chars) : Chars :=
  let digits := match d.precision with
    | some n =>
      if n = 0 ∧ digits = ['0'] then [] else List.replicate (n - digits.length) '0' ++ digits
    | none => digits
  d.padMarked (d.zero && d.precision.isNone) mark digits

/-- The sign in front of a number. -/
def Directive.sign (d : Directive) (negative : Bool) : Chars :=
  if negative then ['-'] else if d.plus then ['+'] else if d.space then [' '] else []

/-- An integer printed with a sign. -/
def Directive.signed (d : Directive) (n : Int) : Chars :=
  d.padInteger (d.sign (n < 0)) (number n.natAbs)

/-- An integer printed to a base without a sign. -/
def Directive.unsigned (d : Directive) (base : Nat) (upper : Bool) (n : Int) : Chars :=
  let digits := Text.Numeral.write base (n % Nat.pow 2 64).toNat
  let digits := if upper then digits.map Char.toUpper else digits
  let mark := if d.alternate && n != 0 then
      (if base = 16 then (if upper then "0X" else "0x") else if base = 8 then "0" else "")
    else ""
  d.padInteger mark.toList digits

/-- A number printed with a point or a power of ten, as a letter asks for. -/
def Directive.real (d : Directive) (letter : Char) (x : Binary64) : Chars :=
  let places := d.precision.getD 6
  let digits := match letter.toLower with
    | 'f' => x.fixed d.alternate places
    | 'e' => x.scientific d.alternate places
    | _ => x.general d.alternate (max places 1)
  let digits := if letter.isUpper then digits.map Char.toUpper else digits
  d.padMarked d.zero (d.sign x.negative) digits

/-- A number too large for any of the format, or none at all, printed. -/
def Directive.unreal (d : Directive) (letter : Char) (negative : Bool) (name : String) : Chars :=
  let name := if letter.isUpper then name.toList.map Char.toUpper else name.toList
  d.pad (d.sign negative ++ name)

/-- The sign at the front of an argument behind blanks, and the rest. -/
def signed (s : Chars) : Bool × Chars :=
  match s.dropWhile fun c ↦ c = ' ' || ('\t' ≤ c && c ≤ '\x0d') with
  | '-' :: t => (true, t)
  | '+' :: t => (false, t)
  | t => (false, t)

/-- The digits of an integer at the front, their base, and the rest. -/
def integerDigits (t : Chars) : Nat × Chars × Chars :=
  let digits (base : Nat) (t : Chars) : Chars :=
    t.takeWhile fun c ↦ (Text.Numeral.digitIn? base c).isSome
  let plain : Nat × Chars × Chars :=
    let base := if t.head? = some '0' then 8 else 10
    let ds := digits base t
    (base, ds, t.drop ds.length)
  match t with
  | '0' :: x :: rest =>
    let ds := digits 16 rest
    if (x = 'x' ∨ x = 'X') ∧ !ds.isEmpty then (16, ds, rest.drop ds.length) else plain
  | _ => plain

/-- What is wrong with an argument of which some is left behind its digits. -/
def fault? (s digits rest : Chars) (inRange : Bool) : Option Fault :=
  if digits.isEmpty && !s.isEmpty then some (.noNumber s)
  else if !rest.isEmpty then some (.notWhole s)
  else if !inRange then some (.outOfRange s)
  else none

/-- What an argument stands for as an integer, and what is wrong with it.  A quotation mark in front
of a character makes it the number of that character. -/
def argument (isSigned : Bool) (s : Chars) : Int × Option Fault :=
  match s with
  | '\'' :: rest => ((rest.head?.map Char.toNat).getD 0, none)
  | '"' :: rest => ((rest.head?.map Char.toNat).getD 0, none)
  | s =>
    let (negative, t) := signed s
    let (base, ds, rest) := integerDigits t
    let n : Int := ((Text.Numeral.read? base ds).getD 0 : Nat)
    let n := if negative then -n else n
    if isSigned then
      let within : Int := max (-(Nat.pow 2 63 : Int)) (min ((Nat.pow 2 63 : Int) - 1) n)
      (within, fault? s ds rest (within == n))
    else if n.natAbs < Nat.pow 2 64 then (n, fault? s ds rest true)
    else (Nat.pow 2 64 - 1, fault? s ds rest false)

/-- A number that an argument stands for. -/
inductive Real where
  | finite (x : Binary64)
  | infinite (negative : Bool)
  | undefined

/-- The power of ten at the front, and the rest. -/
def power (s : Chars) : Int × Chars :=
  match s with
  | e :: rest =>
    if e = 'e' ∨ e = 'E' then
      let (negative, t) := match rest with
        | '-' :: t => (true, t)
        | '+' :: t => (false, t)
        | t => (false, t)
      let ds := t.takeWhile Char.isDigit
      let n : Int := (min ((number? ds).getD 0) 100000 : Nat)
      if ds.isEmpty then (0, s) else (if negative then -n else n, t.drop ds.length)
    else (0, s)
  | [] => (0, [])

/-- What an argument stands for as a number that need not be whole, and what is wrong with it. -/
def realArgument (s : Chars) : Real × Option Fault :=
  let (negative, t) := signed s
  let word := Chars.string (t.map Char.toLower)
  if word = "inf" ∨ word = "infinity" then (.infinite negative, none)
  else if word = "nan" then (.undefined, none)
  else
    let whole := t.takeWhile Char.isDigit
    let (fraction, rest) := match t.drop whole.length with
      | '.' :: rest => (rest.takeWhile Char.isDigit, rest.dropWhile Char.isDigit)
      | rest => ([], rest)
    let digits := whole ++ fraction
    let (e, rest) := power rest
    let e := e - fraction.length
    let n := (number? digits).getD 0
    match Binary64.ofRatio? negative (n * Nat.pow 10 e.toNat) (Nat.pow 10 (-e).toNat) with
    | some x => (.finite x, fault? s digits rest (n = 0 || Nat.pow 2 52 ≤ x.significand))
    | none => (.infinite negative, fault? s digits rest false)

/-! ## Printing -/

/-- What printing has done so far: the output in reverse, the arguments that are left, whether one
was used, what was wrong, and whether all output is ended. -/
structure Printing where
  out : Chars
  arguments : List Chars
  used : Bool
  faults : List Fault
  ended : Bool

/-- The printing with more output. -/
def Printing.say (x : Printing) (s : Chars) : Printing := { x with out := s.reverse ++ x.out }

/-- The printing with one more fault. -/
def Printing.noting (x : Printing) (fault : Option Fault) : Printing :=
  { x with faults := x.faults ++ fault.toList }

/-- The printing that a directive ends which makes no sense. -/
def Printing.stop (x : Printing) (fault : Fault) : Printing :=
  { x.noting (some fault) with ended := true }

/-- The next argument, and the printing behind it. -/
def Printing.next (x : Printing) : Chars × Printing :=
  match x.arguments with
  | a :: rest => (a, { x with arguments := rest, used := true })
  | [] => ([], { x with used := true })

/-- The next argument as an integer, and the printing behind it. -/
def Printing.nextInteger (x : Printing) (isSigned : Bool) : Int × Printing :=
  let (a, x) := x.next
  let (n, fault) := argument isSigned a
  (n, x.noting fault)

/-- The flags at the front of a directive, and the rest. -/
def flags (d : Directive) : Chars → Directive × Chars
  | '-' :: rest => flags { d with left := true } rest
  | '+' :: rest => flags { d with plus := true } rest
  | ' ' :: rest => flags { d with space := true } rest
  | '0' :: rest => flags { d with zero := true } rest
  | '#' :: rest => flags { d with alternate := true } rest
  | s => (d, s)

/-- A number in a directive, which may be an argument, the printing behind it, and the rest. -/
def measure (x : Printing) (s : Chars) : Int × Printing × Chars :=
  match s with
  | '*' :: rest =>
    let (n, x) := x.nextInteger true
    (n, x, rest)
  | s =>
    let ds := s.takeWhile Char.isDigit
    (((number? ds).getD 0 : Nat), x, s.drop ds.length)

/-- The printing behind the next argument, printed as a letter asks for; nothing if the letter asks
for nothing. -/
def convert? (x : Printing) (d : Directive) (letter : Char) : Option Printing :=
  let unsigned (base : Nat) (upper : Bool) : Option Printing :=
    let (n, x) := x.nextInteger false
    some (x.say (d.unsigned base upper n))
  let (a, y) := x.next
  match letter with
  | 's' => some (y.say (d.pad (a.take (d.precision.getD a.length))))
  | 'b' =>
    let (text, ends) := unescape a
    let y := y.say (d.pad (text.take (d.precision.getD text.length)))
    some { y with ended := ends }
  | 'c' => some (y.say (d.pad [a.head?.getD '\x00']))
  | 'd' | 'i' =>
    let (n, x) := x.nextInteger true
    some (x.say (d.signed n))
  | 'u' => unsigned 10 false
  | 'o' => unsigned 8 false
  | 'x' => unsigned 16 false
  | 'X' => unsigned 16 true
  | letter =>
    if "feEgG".toList.contains letter then
      let (n, fault) := realArgument a
      let y := y.noting fault
      some <| y.say <| match n with
        | .finite n => d.real letter n
        | .infinite negative => d.unreal letter negative "inf"
        | .undefined => d.unreal letter false "nan"
    else none

/-- One round through a format; fuel for one step per character. -/
def round : Nat → Printing → Chars → Printing
  | 0, x, _ => x
  | _, x, [] => x
  | fuel + 1, x, '\\' :: s =>
    let (c, rest) := escape s
    round fuel (x.say [c]) rest
  | fuel + 1, x, '%' :: '%' :: rest => round fuel (x.say ['%']) rest
  | fuel + 1, x, '%' :: s =>
    let (d, t) := flags ⟨false, false, false, false, false, 0, none⟩ s
    let (width, y, t) := measure x t
    let d := { d with left := d.left || width < 0, width := width.natAbs }
    let (precision, y, t) := match t with
      | '.' :: t =>
        let (n, y, t) := measure y t
        (if n < 0 then none else some n.toNat, y, t)
      | t => (none, y, t)
    match t with
    | [] => y.stop .noDirective
    | letter :: rest =>
      match convert? y { d with precision } letter with
      | none => y.stop (.unknownDirective ('%' :: s.take (s.length - rest.length)))
      | some z => if z.ended then z else round fuel z rest
  | fuel + 1, x, c :: rest => round fuel { x with out := c :: x.out } rest

/-- Goes through a format as long as there are arguments; fuel for one round per argument. -/
def rounds (format : Chars) : Nat → Printing → Printing
  | 0, x => x
  | fuel + 1, x =>
    let y := round (format.length + 1) { x with used := false } format
    if y.ended || y.arguments.isEmpty || !y.used then y else rounds format fuel y

/-- What a format makes of arguments, and what is wrong with the format and with them. -/
def print (format : Chars) (arguments : List Chars) : Chars × List Fault :=
  let x := rounds format (arguments.length + 1) ⟨[], arguments, false, [], false⟩
  (x.out.reverse, x.faults)

end Format
end Shell
end FirmwareLane
