import FirmwareLane.Files.Basic
import FirmwareLane.Shell.Text

/-!
# Conditions

Conditions on texts, numbers and files, written as the words of a command.  A word can be an operator
or an operand: it depends on the two words behind it which of them it is.
-/

set_option autoImplicit false
namespace FirmwareLane
namespace Shell
namespace Condition

/-- Why a condition has no value. -/
inductive Fault where
  | illegalNumber (text : Chars)
  | unexpectedOperator (text : Chars)
  /-- The operand of an operator is missing. -/
  | argumentExpected (operator : Chars)
  | closingExpected
  deriving DecidableEq, Repr

/-- The wording of a fault. -/
def Fault.message : Fault → String
  | .illegalNumber text => "Illegal number: " ++ text.string
  | .unexpectedOperator text => text.string ++ ": unexpected operator"
  | .argumentExpected operator => operator.string ++ ": argument expected"
  | .closingExpected => "closing paren expected"

/-! ## Operators -/

/-- The operators with one operand. -/
def unary : List String :=
  ["-n", "-z", "-e", "-f", "-d", "-r", "-w", "-x", "-s", "-h", "-L", "-b", "-c", "-p", "-S", "-g",
   "-u", "-k", "-O", "-G", "-t"]

/-- The operators with two operands. -/
def binary : List String :=
  ["=", "!=", "<", ">", "-eq", "-ne", "-gt", "-ge", "-lt", "-le", "-nt", "-ot", "-ef"]

/-- Whether a word can be an operator with one operand. -/
def isUnary (w : Chars) : Bool := unary.contains w.string

/-- Whether a word is an operator with two operands. -/
def isBinary (w : Chars) : Bool := binary.contains w.string

/-- The number that a word stands for, blanks around it allowed. -/
def integerOf (s : Chars) : Except Fault Int :=
  match integer? ((s.reverse.dropWhile fun c ↦ c = ' ' || c = '\t' || c = '\n').reverse) with
  | some n => if -Nat.pow 2 63 ≤ n ∧ n < Nat.pow 2 63 then .ok n else .error (.illegalNumber s)
  | none => .error (.illegalNumber s)

/-- The value of an operator with one operand. -/
def applyUnary (fs : Files) (operator : String) (s : Chars) : Except Fault Bool :=
  let path := s.string
  let holds (p : Node → Bool) : Except Fault Bool :=
    match fs.node path with
    | .ok n => .ok (p n)
    | .error _ => .ok false
  match operator with
  | "-n" => .ok (!s.isEmpty)
  | "-z" => .ok s.isEmpty
  | "-f" => holds Node.isFile
  | "-d" => holds Node.isDirectory
  | "-r" => holds (Node.allows .read)
  | "-w" => holds (Node.allows .write)
  | "-x" => holds (Node.allows .search)
  | "-s" => holds fun n ↦ n.isDirectory || !n.bytes.isEmpty
  | "-h" | "-L" =>
    match fs.present false path with
    | .ok (_, n) => .ok n.isLink
    | .error _ => .ok false
  | "-c" => holds fun n ↦
    match n with
    | .device _ => true
    | _ => false
  | "-b" | "-p" | "-S" => .ok false
  | "-t" => do
    let _ ← integerOf s
    return false
  | "-g" => holds fun n ↦ n.mode &&& 0o2000 != 0
  | "-u" => holds fun n ↦ n.mode &&& 0o4000 != 0
  | "-k" => holds fun n ↦ n.mode &&& 0o1000 != 0
  | _ => holds fun _ ↦ true

/-- The value of an operator with two operands. -/
def applyBinary (fs : Files) (operator : String) (a b : Chars) : Except Fault Bool :=
  let compare (f : Int → Int → Bool) : Except Fault Bool := do
    return f (← integerOf a) (← integerOf b)
  match operator with
  | "=" => .ok (a == b)
  | "!=" => .ok (a != b)
  | "<" => .ok (decide (a < b))
  | ">" => .ok (decide (b < a))
  | "-eq" => compare fun x y ↦ x == y
  | "-ne" => compare fun x y ↦ x != y
  | "-gt" => compare fun x y ↦ y < x
  | "-ge" => compare fun x y ↦ y ≤ x
  | "-lt" => compare fun x y ↦ x < y
  | "-le" => compare fun x y ↦ x ≤ y
  | "-ef" =>
    match fs.present true a.string, fs.present true b.string with
    | .ok (p, m), .ok (q, n) => .ok (p == q || (m.identity != 0 && m.identity == n.identity))
    | _, _ => .ok false
  | _ => .ok false

/-! ## Words -/

/-- What the word at the front is. -/
inductive Token where
  | nothing
  | operand
  | unary
  | binary
  | not
  | and
  | or
  | opening
  | closing
  deriving DecidableEq

/-- What the word at the front of some words is.  An operator with one operand is itself an operand
where nothing follows it, or an operator with two operands that has the second one; an opening
parenthesis is one where nothing follows it. -/
def token : List Chars → Token
  | [] => .nothing
  | w :: rest =>
    let isOperand := match rest with
      | [] => true
      | [_] => false
      | next :: _ => isBinary next
    if isUnary w then if isOperand then .operand else .unary
    else if isBinary w then .binary
    else
      match w.string with
      | "!" => .not
      | "-a" => .and
      | "-o" => .or
      | "(" => if rest.isEmpty then .operand else .opening
      | ")" => .closing
      | _ => .operand

/-! ## Values -/

mutual

/-- The value of conditions one of which has to hold, the first of which begins with a token, and the
words from the last one of it on.  Fuel for one step per word. -/
def disjunction (fs : Files) : Nat → Token → List Chars → Except Fault (Bool × List Chars)
  | 0, _, ws => .ok (false, ws)
  | fuel + 1, t, ws => do
    let (x, ws) ← conjunction fs fuel t ws
    if token (ws.drop 1) = .or then do
      let (y, ws) ← disjunction fs fuel (token (ws.drop 2)) (ws.drop 2)
      return (x || y, ws)
    else return (x, ws)

/-- The value of conditions all of which have to hold. -/
def conjunction (fs : Files) : Nat → Token → List Chars → Except Fault (Bool × List Chars)
  | 0, _, ws => .ok (false, ws)
  | fuel + 1, t, ws => do
    let (x, ws) ← negation fs fuel t ws
    if token (ws.drop 1) = .and then do
      let (y, ws) ← conjunction fs fuel (token (ws.drop 2)) (ws.drop 2)
      return (x && y, ws)
    else return (x, ws)

/-- The value of a condition that may be negated. -/
def negation (fs : Files) : Nat → Token → List Chars → Except Fault (Bool × List Chars)
  | 0, _, ws => .ok (false, ws)
  | fuel + 1, t, ws => do
    if t = .not then do
      let next := token (ws.drop 1)
      let (x, ws) ← negation fs fuel next (if next = .nothing then ws else ws.drop 1)
      return (!x, ws)
    else primary fs fuel t ws

/-- The value of a condition without operators between conditions. -/
def primary (fs : Files) : Nat → Token → List Chars → Except Fault (Bool × List Chars)
  | 0, _, ws => .ok (false, ws)
  | fuel + 1, t, ws =>
    match t, ws with
    | .nothing, ws => .ok (false, ws)
    | _, [] => .ok (false, [])
    | .opening, _ :: rest => do
      let next := token rest
      if next = .closing then return (false, rest)
      else
        let (x, ws) ← disjunction fs fuel next rest
        if token (ws.drop 1) = .closing then return (x, ws.drop 1) else throw .closingExpected
    | .unary, w :: rest =>
      match rest with
      | [] => .error (.argumentExpected w)
      | s :: _ => do return (← applyUnary fs w.string s, rest)
    | _, a :: rest =>
      match rest with
      | w :: behind =>
        if token rest = .binary then
          match behind with
          | [] => .error (.argumentExpected w)
          | b :: _ => do return (← applyBinary fs w.string a b, behind)
        else .ok (!a.isEmpty, ws)
      | [] => .ok (!a.isEmpty, ws)

end

/-- The value of a condition of which the first token is known. -/
def valueOf (fs : Files) (t : Token) (ws : List Chars) : Except Fault Bool := do
  let (x, rest) ← disjunction fs (8 * ws.length + 8) t ws
  match rest with
  | w :: _ :: _ => throw (.unexpectedOperator w)
  | _ => return x

/-- The value of a condition.  Three words around an operator with two operands are just that; else
parentheses around three or four words are passed over, and so is a negation, which counts once
then. -/
def holds (fs : Files) (ws : List Chars) : Except Fault Bool :=
  match ws with
  | [] => .ok false
  | [a, b, c] => three a b c
  | [a, b, c, d] =>
    if isEnclosed ws then whole [b, c]
    else if a = ['!'] then do
      if b = ['!'] && !isBinary c then return !(← whole [c, d]) else return !(← three b c d)
    else whole ws
  | ws => whole ws
where
  /-- The value of words of which the first may be anything. -/
  whole (ws : List Chars) : Except Fault Bool := valueOf fs (token ws) ws
  /-- Whether words stand in parentheses. -/
  isEnclosed (ws : List Chars) : Bool := ws.head? = some ['('] && ws.getLast? = some [')']
  /-- The value of three words. -/
  three (a b c : Chars) : Except Fault Bool :=
    if isBinary b then valueOf fs .operand [a, b, c]
    else if isEnclosed [a, b, c] then whole [b]
    else if a = ['!'] then do return !(← whole [b, c])
    else whole [a, b, c]

end Condition
end Shell
end FirmwareLane
