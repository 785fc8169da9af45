import FirmwareLane.Shell.Command

/-!
# Arithmetic of a shell

Expressions over integers of 64 bits, with the operators of their usual precedence, variables and
assignments to them.
-/

set_option autoImplicit false
namespace FirmwareLane
namespace Shell
namespace Arithmetic

/-- An expression. -/
inductive Expr where
  | number (n : Int)
  | variable (name : Chars)
  | unary (op : String) (a : Expr)
  | binary (op : String) (a b : Expr)
  | choice (a b c : Expr)
  | assign (name : Chars) (op : String) (a : Expr)
  deriving Repr, Inhabited

/-- Why an expression has no value. -/
inductive Fault where
  | expectingPrimary
  | expectingEnd
  | expectingColon
  | divisionByZero
  | missingParenthesis
  /-- A variable has a value that is no number. -/
  | illegalNumber (text : Chars)
  deriving DecidableEq, Repr

/-- The wording of a fault in an expression. -/
def Fault.message (source : Chars) (fault : Fault) : String :=
  let wanted (what : String) : String :=
    "arithmetic expression: " ++ what ++ ": \"" ++ source.string ++ "\""
  match fault with
  | .expectingPrimary => wanted "expecting primary"
  | .expectingEnd => wanted "expecting EOF"
  | .expectingColon => wanted "expecting ':'"
  | .divisionByZero => wanted "division by zero"
  | .missingParenthesis => wanted "expecting ')'"
  | .illegalNumber text => "Illegal number: " ++ text.string

/-- The text without blanks in front. -/
def skip (s : Chars) : Chars := s.dropWhile fun c ↦ c = ' ' || c = '\t' || c = '\n'

/-- The operators, the longer ones first, with how tightly they bind. -/
def operators : List (String × Nat) :=
  [("||", 1), ("&&", 2), ("==", 6), ("!=", 6), ("<=", 7), (">=", 7), ("<<", 8), (">>", 8),
   ("|", 3), ("^", 4), ("&", 5), ("<", 7), (">", 7), ("+", 9), ("-", 9), ("*", 10), ("/", 10),
   ("%", 10)]

/-- The operators of assignments, the longer ones first. -/
def assignments : List String :=
  ["<<=", ">>=", "+=", "-=", "*=", "/=", "%=", "&=", "|=", "^="]

/-- The operator of an assignment at the front, and the rest. -/
def assignment? (s : Chars) : Option (String × Chars) :=
  match assignments.find? fun o ↦ o.toList.isPrefixOf s with
  | some o => some (String.ofList o.toList.dropLast, s.drop o.length)
  | none =>
    match s with
    | '=' :: '=' :: _ => none
    | '=' :: rest => some ("", rest)
    | _ => none

/-- The greatest integer. -/
def greatest : Int := Nat.pow 2 63 - 1

/-- The digits of a number at the front, their base, and the rest.  A zero in front makes the base
eight, and an `x` behind it sixteen. -/
def digitsOf (s : Chars) : Nat × Chars × Chars :=
  let digits (base : Nat) (s : Chars) : Chars :=
    s.takeWhile fun c ↦ (Text.Numeral.digitIn? base c).isSome
  let plain : Nat × Chars × Chars :=
    let base := if s.head? = some '0' then 8 else 10
    let ds := digits base s
    (base, ds, s.drop ds.length)
  match s with
  | '0' :: x :: rest =>
    let ds := digits 16 rest
    if (x = 'x' ∨ x = 'X') ∧ !ds.isEmpty then (16, ds, rest.drop ds.length) else plain
  | _ => plain

/-- The number at the front, which is the greatest one if it would be greater, and the rest. -/
def literal (s : Chars) : Int × Chars :=
  let (base, ds, rest) := digitsOf s
  (min greatest (((Text.Numeral.read? base ds).getD 0 : Nat) : Int), rest)

/-- The number that the value of a variable stands for.  No value stands for zero. -/
def valueOf (s : Chars) : Except Fault Int :=
  let isBlank (c : Char) : Bool := c = ' ' || ('\t' ≤ c && c ≤ '\x0d')
  let t := s.dropWhile isBlank
  let (negative, t) := match t with
    | '-' :: t => (true, t)
    | '+' :: t => (false, t)
    | t => (false, t)
  let (base, ds, rest) := digitsOf t
  let n : Int := ((Text.Numeral.read? base ds).getD 0 : Nat)
  let n := if negative then -n else n
  if s.isEmpty then .ok 0
  else if ds.isEmpty || !rest.all isBlank || greatest < n || n < -greatest - 1 then
    .error (.illegalNumber s)
  else .ok n

mutual

/-- The expression at the front that binds at least so tightly, and the rest. -/
def expression : Nat → Nat → Chars → Except Fault (Expr × Chars)
  | 0, _, _ => .error .expectingPrimary
  | fuel + 1, least, s => do
    let (first, rest) ← primary fuel (skip s)
    binaries fuel least first rest

/-- The expression that goes on behind a first operand. -/
def binaries : Nat → Nat → Expr → Chars → Except Fault (Expr × Chars)
  | 0, _, _, _ => .error .expectingPrimary
  | fuel + 1, least, first, s => do
    let s := skip s
    match s with
    | '?' :: rest =>
      if least = 0 then do
        let (yes, rest) ← expression fuel 0 rest
        match skip rest with
        | ':' :: rest => do
          let (no, rest) ← expression fuel 0 rest
          return (.choice first yes no, rest)
        | _ => .error .expectingColon
      else return (first, s)
    | s =>
      match operators.find? fun o ↦ o.1.toList.isPrefixOf s with
      | some (o, tightness) =>
        if least ≤ tightness then do
          let (second, rest) ← expression fuel (tightness + 1) (s.drop o.length)
          binaries fuel least (.binary o first second) rest
        else return (first, s)
      | none => return (first, s)

/-- The operand at the front. -/
def primary : Nat → Chars → Except Fault (Expr × Chars)
  | 0, _ => .error .expectingPrimary
  | fuel + 1, s => do
    match s with
    | [] => .error .expectingPrimary
    | '(' :: rest => do
      let (e, rest) ← expression fuel 0 rest
      match skip rest with
      | ')' :: rest => return (e, rest)
      | _ => .error .missingParenthesis
    | c :: rest =>
      if c = '-' ∨ c = '+' ∨ c = '!' ∨ c = '~' then do
        let (e, rest) ← primary fuel (skip rest)
        return (.unary (String.ofList [c]) e, rest)
      else if c.isDigit then
        let (n, rest) := literal (c :: rest)
        return (.number n, rest)
      else
        let (name, rest) := takeName (c :: rest)
        if name.isEmpty then .error .expectingPrimary
        else
          match assignment? (skip rest) with
          | some (o, rest) => do
            let (e, rest) ← expression fuel 0 rest
            return (.assign name o e, rest)
          | none => return (.variable name, rest)

end

/-- An integer reduced to 64 bits. -/
def wrap (n : Int) : Int := Int.bmod n (Nat.pow 2 64)

/-- A truth value as an integer. -/
def truth (b : Bool) : Int := if b then 1 else 0

/-- The value of an operator. -/
def apply (op : String) (a b : Int) : Except Fault Int :=
  let bits (f : BitVec 64 → BitVec 64 → BitVec 64) : Int :=
    (f (BitVec.ofInt 64 a) (BitVec.ofInt 64 b)).toInt
  match op with
  | "+" => .ok (wrap (a + b))
  | "-" => .ok (wrap (a - b))
  | "*" => .ok (wrap (a * b))
  | "/" => if b = 0 then .error .divisionByZero else .ok (wrap (Int.tdiv a b))
  | "%" => if b = 0 then .error .divisionByZero else .ok (Int.tmod a b)
  | "<<" => .ok (wrap (a * Nat.pow 2 (b % 64).toNat))
  | ">>" => .ok (a / Nat.pow 2 (b % 64).toNat)
  | "&" => .ok (bits fun x y ↦ x &&& y)
  | "|" => .ok (bits fun x y ↦ x ||| y)
  | "^" => .ok (bits fun x y ↦ x ^^^ y)
  | "==" => .ok (truth (a == b))
  | "!=" => .ok (truth (a != b))
  | "<=" => .ok (truth (a ≤ b))
  | ">=" => .ok (truth (b ≤ a))
  | "<" => .ok (truth (a < b))
  | ">" => .ok (truth (b < a))
  | "&&" => .ok (truth (a != 0 && b != 0))
  | "||" => .ok (truth (a != 0 || b != 0))
  | _ => .ok b

/-- The variables that an expression reads and those that it sets. -/
abbrev Store := List (Chars × Int)

/-- The value of a variable, given how variables are read that were not set. -/
def current (read : Chars → Except Fault Int) (set : Store) (name : Chars) : Except Fault Int :=
  match set.lookup name with
  | some n => .ok n
  | none => read name

/-- The value of an expression, and the variables that it set, given how other ones are read. -/
def eval (read : Chars → Except Fault Int) (set : Store) : Expr → Except Fault (Int × Store)
  | .number n => .ok (wrap n, set)
  | .variable name => do return (← current read set name, set)
  | .unary op a => do
    let (x, set) ← eval read set a
    match op with
    | "-" => return (wrap (-x), set)
    | "!" => return (truth (x == 0), set)
    | "~" => return (-x - 1, set)
    | _ => return (x, set)
  | .binary op a b => do
    let (x, set) ← eval read set a
    if op = "&&" ∧ x = 0 then return (0, set)
    else if op = "||" ∧ x ≠ 0 then return (1, set)
    else do
      let (y, set) ← eval read set b
      return (← apply op x y, set)
  | .choice a b c => do
    let (x, set) ← eval read set a
    if x ≠ 0 then eval read set b else eval read set c
  | .assign name op a => do
    let (x, set) ← eval read set a
    let value ← if op.isEmpty then pure x else apply op (← current read set name) x
    return (value, (name, value) :: set)

/-- The value of a text, and the variables that it sets. -/
def evaluate (read : Chars → Except Fault Int) (source : Chars) :
    Except Fault (Int × Store) := do
  let (e, rest) ← expression (4 * source.length + 8) 0 source
  if (skip rest).isEmpty then eval read [] e else .error .expectingEnd

end Arithmetic
end Shell
end FirmwareLane
