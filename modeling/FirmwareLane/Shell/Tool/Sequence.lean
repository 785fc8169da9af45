import FirmwareLane.Shell.Format
import FirmwareLane.Shell.Tool.Basic

/-!
# Tools that make lines up

Tools that count in steps and that repeat a line without end.
-/

set_option autoImplicit false
namespace FirmwareLane
namespace Shell
namespace Tool

open Act

/-! ## Counting -/

/-- A number with a point: an integer divided by a power of ten, with the digits behind its point and
the width that it is written in. -/
structure PointNumber where
  digits : Int
  scale : Nat
  places : Nat
  width : Nat

/-- The number that a word stands for; no number stands for one that has no end. -/
def pointNumber? (w : Chars) : Option (Option PointNumber) :=
  let s := w.dropWhile fun c ↦ c = ' ' || c = '+'
  let (negative, t) := match s with
    | '-' :: t => (true, t)
    | t => (false, t)
  let lower := t.map Char.toLower
  if lower = "inf".toList ∨ lower = "infinity".toList then some none
  else
    match t with
    | '0' :: x :: hex =>
      if x = 'x' ∨ x = 'X' then
        (Text.Numeral.read? 16 (hex.map Char.toLower)).map fun n ↦
          some ⟨if negative then -(n : Int) else n, 0, 0, w.length⟩
      else decimal negative s t
    | t => decimal negative s t
where
  /-- The number that a text in digits to the base ten stands for, behind its sign. -/
  decimal (negative : Bool) (s t : Chars) : Option (Option PointNumber) :=
    let whole := t.takeWhile Char.isDigit
    let behind := t.drop whole.length
    let hasPoint := behind.head? == some '.'
    let fraction := if hasPoint then (behind.drop 1).takeWhile Char.isDigit else []
    let rest := if hasPoint then behind.drop (fraction.length + 1) else behind
    let exponent? : Option Int := match rest with
      | [] => some 0
      | c :: e => if c = 'e' ∨ c = 'E' then integer? e else none
    match number? (whole ++ fraction), exponent? with
    | some n, some e =>
      let n : Int := if negative then -(n : Int) else n
      let places := if e < 0 then fraction.length + e.natAbs else fraction.length - e.toNat
      let pointWidth : Int :=
        if hasPoint then (if fraction.isEmpty then -1 else if whole.isEmpty then 1 else 0) else 0
      let exponentWidth : Int :=
        if rest.isEmpty then 0
        else if e < 0 then
          (if hasPoint then (if fraction.isEmpty then 1 else 0) else 1) + (e.natAbs : Int)
        else
          (if hasPoint && places = 0 && !fraction.isEmpty then -1 else 0) +
            ((e.toNat - fraction.length : Nat) : Int)
      let width := (s.length : Int) + pointWidth - rest.length + exponentWidth
      some (some
        { digits := if e < 0 then n else n * Nat.pow 10 (e.toNat - fraction.length)
          scale := if e < 0 then fraction.length + e.natAbs else fraction.length - e.toNat
          places
          width := width.toNat })
    | _, _ => none

/-- The integer that a number is with so many digits behind its point. -/
def PointNumber.scaled (x : PointNumber) (scale : Nat) : Int := x.digits * Nat.pow 10 (scale - x.scale)

/-- An integer with a point before the last so many of its digits, of which so many are shown, with
zeros in front of it up to a width. -/
def withPoint (scale places width : Nat) (n : Int) : Chars :=
  let sign : Chars := if n < 0 then ['-'] else []
  let digits := Text.Numeral.writePadded 10 (scale + 1) n.natAbs
  let whole := digits.take (digits.length - scale)
  let fraction := (digits.drop (digits.length - scale)).take places
  let text := whole ++ if places = 0 then [] else '.' :: fraction
  sign ++ List.replicate (width - sign.length - text.length) '0' ++ text

/-- What is wrong with a format that is to have one directive for a number, if something is. -/
def formatFault? (format : Chars) : Option String :=
  let mark (s : Chars) : String := "format '" ++ s.string ++ "' "
  match directive (format.length + 1) format with
  | none => some (mark format ++ "has no % directive")
  | some body =>
    match body.dropWhile fun c ↦ "-+#0 '.L".toList.contains c || c.isDigit with
    | [] => some (mark format ++ "ends in %")
    | c :: rest =>
      if !"efgaEFGA".toList.contains c then
        some (mark format ++ "has unknown %" ++ Chars.string [c] ++ " directive")
      else if (directive (rest.length + 1) rest).isSome then
        some (mark format ++ "has too many % directives")
      else none
where
  /-- What stands behind the mark of the first directive; fuel for one step per character. -/
  directive : Nat → Chars → Option Chars
    | 0, _ => none
    | fuel + 1, s =>
      match s with
      | '%' :: '%' :: rest => directive fuel rest
      | '%' :: rest => some rest
      | _ :: rest => directive fuel rest
      | [] => none

/-- How lines are counted: the first number and the step, the number of lines if there is an end, and
what stands between them. -/
structure Counting where
  first : Int
  step : Int
  lines : Option Nat
  separator : Chars
  form : Int → Chars

/-- The number of lines that are made up at once. -/
def countedLines : Nat := 1024

/-- The number of lines behind which counting is taken to have no end. -/
def greatestLines : Nat := Nat.pow 2 21

/-- Prints so many lines from one on; fuel for one step per piece. -/
def Counting.print (x : Counting) : Nat → Nat → Act Nat
  | 0, _ => throw .timeUp
  | fuel + 1, done => do
    let most := match x.lines with
      | some n => min countedLines (n - done)
      | none => countedLines
    let isLast := (x.lines.map (done + most == ·)).getD false
    let texts := (List.range most).map fun i ↦ x.form (x.first + x.step * ((done + i : Nat) : Int))
    if done = 0 && most = 0 then return 0
    say (joinWith x.separator texts ++ if isLast then ['\n'] else x.separator)
    if isLast then return 0 else x.print fuel (done + most)

/-- The options of `seq` at the front, and the other words.  A number may begin like an option; fuel for
one step per word. -/
def countingArguments : Nat → Arguments → List Chars → Except OptionFault Arguments
  | 0, a, words => .ok { a with operands := words }
  | fuel + 1, a, words =>
    let known : Options :=
      ⟨"w", "fs", [("equal-width", 'w'), ("format", 'f'), ("separator", 's')]⟩
    match words with
    | ['-', '-'] :: rest => .ok { a with operands := rest }
    | ('-' :: '-' :: name) :: rest => do
      let (a, rest) ← Arguments.readLong known a name rest
      countingArguments fuel a rest
    | ('-' :: c :: letters) :: rest =>
      if c.isDigit || c = '.' then .ok { a with operands := words }
      else do
        let (a, rest) ← Arguments.readLetters known (letters.length + 2) a (c :: letters) rest
        countingArguments fuel a rest
    | words => .ok { a with operands := words }

/-- Counts from one number to another. -/
def countLines (a : Arguments) (first step last : Option PointNumber) : Act Nat := do
  let one : PointNumber := ⟨1, 0, 0, 1⟩
  let first := first.getD one
  let step := step.getD one
  let scale := max (max first.scale step.scale) ((last.map (·.scale)).getD 0)
  let places := max first.places step.places
  let start := first.scaled scale
  let by_ := step.scaled scale
  let lines := last.map fun last ↦
    let goal := last.scaled scale
    if 0 < by_ then (if goal < start then 0 else ((goal - start) / by_).toNat + 1)
    else (if start < goal then 0 else ((start - goal) / (-by_)).toNat + 1)
  let widthOf (x : PointNumber) : Nat :=
    x.width + (places - x.places) + (if x.places = 0 && 0 < places then 1 else 0) -
      (x.places - places) - (if 0 < x.places && places = 0 then 1 else 0)
  let width := if a.has 'w' then max (widthOf first) ((last.map widthOf).getD 0) else 0
  let form (n : Int) : Chars :=
    match a.value? 'f' with
    | some format => (Format.print format [withPoint scale scale 0 n]).1
    | none => withPoint scale places width n
  Counting.print ⟨start, by_, lines, (a.value? 's').getD ['\n'], form⟩ (greatestLines / countedLines) 0

/-- Counts. -/
def seq : Tool := fun words ↦ do
  match countingArguments (words.length + 1) ⟨[], []⟩ words with
  | .error fault => misused "seq" fault.message
  | .ok a =>
    let isNaN (w : Chars) : Bool := (w.map Char.toLower).dropWhile (· == '-') == "nan".toList
    match a.operands, (a.value? 'f').bind formatFault? with
    | [], _ => misused "seq" "missing operand"
    | _ :: _ :: _ :: extra :: _, _ => misused "seq" ("extra operand '" ++ extra.string ++ "'")
    | _, some fault => do
      complain "seq" fault
      return 1
    | operands, none =>
      match operands.find? isNaN, operands.find? fun w ↦ (pointNumber? w).isNone with
      | some w, _ => misused "seq" ("invalid 'not-a-number' argument: '" ++ w.string ++ "'")
      | none, some w =>
        misused "seq" ("invalid floating point argument: '" ++ w.string ++ "'")
      | none, none =>
        match operands.filterMap pointNumber? with
        | [last] => countLines a none none last
        | [first, last] => countLines a first none last
        | [first, step, last] =>
          if step.any fun x ↦ x.digits = 0 then
            misused "seq" ("invalid Zero increment value: '" ++
              Chars.string ((operands[1]?).getD []) ++ "'")
          else countLines a first step last
        | _ => return 1

/-! ## Repeating -/

/-- How often a line is written at once. -/
def repeatedLines : Nat := 512

/-- The number of pieces behind which nobody is taken to stop reading. -/
def greatestPieces : Nat := Nat.pow 2 12

/-- Prints a text as long as someone reads it; fuel for one step per piece. -/
def printOn (text : Chars) : Nat → Act Nat
  | 0 => throw .timeUp
  | fuel + 1 => do
    match ← write 1 text with
    | .ok () => printOn text fuel
    | .error fault => do
      complain "yes" ("standard output: " ++ fault.reason)
      return 1

/-- Prints a line without end. -/
def yes : Tool := fun words ↦ do
  let line := (if words.isEmpty then ['y'] else joinWith [' '] words) ++ ['\n']
  printOn (List.replicate repeatedLines line).flatten greatestPieces

end Tool
end Shell
end FirmwareLane
