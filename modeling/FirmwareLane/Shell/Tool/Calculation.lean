import FirmwareLane.Shell.Regex
import FirmwareLane.Shell.Tool.Basic

/-!
# A tool that calculates

A tool that prints the value of an expression whose parts are its arguments.  Values are texts; those
that are integers can be calculated with.
-/

set_option autoImplicit false
namespace FirmwareLane
namespace Shell
namespace Calculation

/-- Why words have no value. -/
inductive Fault where
  | missingArgument (after : Chars)
  | unexpectedArgument (word : Chars)
  | noParenthesisAfter (after : Chars)
  | noParenthesisAt (word : Chars)
  | unexpectedParenthesis
  | notInteger
  | divisionByZero
  | regex (fault : RegexFault)
  deriving DecidableEq, Repr

/-- The wording of a fault. -/
def Fault.message : Fault → String
  | .missingArgument after => "syntax error: missing argument after '" ++ after.string ++ "'"
  | .unexpectedArgument w => "syntax error: unexpected argument '" ++ w.string ++ "'"
  | .noParenthesisAfter after => "syntax error: expecting ')' after '" ++ after.string ++ "'"
  | .noParenthesisAt w => "syntax error: expecting ')' instead of '" ++ w.string ++ "'"
  | .unexpectedParenthesis => "syntax error: unexpected ')'"
  | .notInteger => "non-integer argument"
  | .divisionByZero => "division by zero"
  | .regex fault => fault.message

/-! ## Values -/

/-- Whether a value counts as false: nothing, or a zero that may have a sign. -/
def isNull (s : Chars) : Bool :=
  let digits := if s.head? = some '-' then s.drop 1 else s
  s.isEmpty || (!digits.isEmpty && digits.all (· == '0'))

/-- The integer that a value is. -/
def integerOf? : Chars → Option Int
  | '-' :: digits => (number? digits).map fun n ↦ -(n : Int)
  | digits => (number? digits).map fun n ↦ (n : Int)

/-- The integer that a value has to be. -/
def integerOf (s : Chars) : Except Fault Int :=
  match integerOf? s with
  | some n => .ok n
  | none => .error .notInteger

/-- The truth of something, as a value. -/
def truth (holds : Bool) : Chars := if holds then ['1'] else ['0']

/-- The order of two values: that of the integers if both are some. -/
def order (a b : Chars) : Ordering :=
  match integerOf? a, integerOf? b with
  | some x, some y => compare x y
  | _, _ => if a < b then .lt else if a = b then .eq else .gt

/-- What the first group of an expression matches at the start of a text, or how long the match is if
there is no group. -/
def matched (s pattern : Chars) : Except Fault Chars :=
  match Regex.read ⟨false, true⟩ pattern with
  | .error fault => .error (.regex fault)
  | .ok r =>
    let subject : Regex.Subject := ⟨s.toArray, false, false⟩
    match r.groupCount, Regex.matchAt? subject r 0 with
    | 0, some m => .ok (number m.last)
    | 0, none => .ok ['0']
    | _, some m => .ok (m.text subject 1)
    | _, none => .ok []

/-- The part of a text from a character on, with so many characters. -/
def part (s first count : Chars) : Chars :=
  match integerOf? first, integerOf? count with
  | some first, some count =>
    if first ≤ 0 then [] else (s.drop (first.toNat - 1)).take count.toNat
  | _, _ => []

/-- The number of the first character of a text that is one of some, from one on; zero if there is
none. -/
def indexOf (s set : Chars) : Nat :=
  match s.findIdx? fun c ↦ set.contains c with
  | some i => i + 1
  | none => 0

/-! ## Operators -/

/-- The operators between two values, those that bind least first. -/
def operators : List (List String) :=
  [["|"], ["&"], ["<", "<=", "=", "==", "!=", ">=", ">"], ["+", "-"], ["*", "/", "%"], [":"]]

/-- The value of an operator between two values. -/
def apply (operator : String) (a b : Chars) : Except Fault Chars := do
  let calculate (f : Int → Int → Int) : Except Fault Chars := do
    return integer (f (← integerOf a) (← integerOf b))
  let divide (f : Int → Int → Int) : Except Fault Chars := do
    let x ← integerOf a
    let y ← integerOf b
    if y = 0 then throw .divisionByZero else return integer (f x y)
  match operator with
  | "|" => return if !isNull a then a else if isNull b then ['0'] else b
  | "&" => return if isNull a || isNull b then ['0'] else a
  | "<" => return truth (order a b == .lt)
  | "<=" => return truth (order a b != .gt)
  | "=" => return truth (order a b == .eq)
  | "==" => return truth (order a b == .eq)
  | "!=" => return truth (order a b != .eq)
  | ">=" => return truth (order a b != .lt)
  | ">" => return truth (order a b == .gt)
  | "+" => calculate (· + ·)
  | "-" => calculate (· - ·)
  | "*" => calculate (· * ·)
  | "/" => divide Int.tdiv
  | "%" => divide Int.tmod
  | _ => matched a b

/-- Whether the second value of an operator counts, given the first one. -/
def asksFurther (operator : String) (a : Chars) : Bool :=
  match operator with
  | "|" => isNull a
  | "&" => !isNull a
  | _ => true

/-- What is left of an expression behind a value: the word before, and the other words. -/
structure Rest where
  last : Chars
  words : List Chars

mutual

/-- The value of operators that bind at least so tightly, behind a word.  Where a value does not count,
nothing is calculated for it.  Fuel for one step per word and kind of operator. -/
def value (counts : Bool) : Nat → List (List String) → Rest → Except Fault (Chars × Rest)
  | 0, _, x => .error (.missingArgument x.last)
  | fuel + 1, [], x => operand counts fuel x
  | fuel + 1, least :: tighter, x => do
    let (first, x) ← value counts fuel tighter x
    more counts fuel least tighter first x

/-- The value of what goes on behind a first value with some operators. -/
def more (counts : Bool) : Nat → List String → List (List String) → Chars → Rest →
    Except Fault (Chars × Rest)
  | 0, _, _, _, x => .error (.missingArgument x.last)
  | fuel + 1, least, tighter, first, x =>
    match x.words with
    | w :: words =>
      let operator := w.string
      if least.contains operator then do
        let counts' := counts && asksFurther operator first
        let (second, x) ← value counts' fuel tighter ⟨w, words⟩
        let result ← if counts' then apply operator first second
          else if operator = "&" then pure ['0']
          else pure first
        more counts fuel least tighter result x
      else .ok (first, x)
    | [] => .ok (first, x)

/-- The value of one operand. -/
def operand (counts : Bool) : Nat → Rest → Except Fault (Chars × Rest)
  | 0, x => .error (.missingArgument x.last)
  | fuel + 1, x =>
    match x.words with
    | [] => .error (.missingArgument x.last)
    | w :: words => do
      let behind : Rest := ⟨w, words⟩
      match w.string with
      | "(" => do
        let (v, x) ← value counts fuel operators behind
        match x.words with
        | [')'] :: words => return (v, ⟨[')'], words⟩)
        | other :: _ => throw (.noParenthesisAt other)
        | [] => throw (.noParenthesisAfter x.last)
      | ")" => throw .unexpectedParenthesis
      | "+" =>
        match words with
        | s :: words => return (s, ⟨s, words⟩)
        | [] => throw (.missingArgument w)
      | "length" => do
        let (s, x) ← operand counts fuel behind
        return (number s.length, x)
      | "match" => do
        let (s, x) ← operand counts fuel behind
        let (pattern, x) ← operand counts fuel x
        let found ← if counts then matched s pattern else pure []
        return (found, x)
      | "index" => do
        let (s, x) ← operand counts fuel behind
        let (set, x) ← operand counts fuel x
        return (number (indexOf s set), x)
      | "substr" => do
        let (s, x) ← operand counts fuel behind
        let (first, x) ← operand counts fuel x
        let (count, x) ← operand counts fuel x
        return (part s first count, x)
      | _ => return (w, behind)

end

/-- The value of all words. -/
def valueOf (words : List Chars) : Except Fault Chars := do
  let (v, x) ← value true (20 * words.length + 20) operators ⟨[], words⟩
  match x.words with
  | [] => return v
  | w :: _ => throw (.unexpectedArgument w)

end Calculation

namespace Tool

open Act

/-- Calculates. -/
def expr : Tool := fun words ↦ do
  let words := if words.head? = some ['-', '-'] then words.drop 1 else words
  if words.isEmpty then misusedWith 2 "expr" "missing operand"
  else
    match Calculation.valueOf words with
    | .ok v => do
      say (v ++ ['\n'])
      return if Calculation.isNull v then 1 else 0
    | .error fault => do
      complain "expr" fault.message
      return 2

end Tool
end Shell
end FirmwareLane
