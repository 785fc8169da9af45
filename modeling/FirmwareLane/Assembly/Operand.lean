import FirmwareLane.Assembly.Fault
import FirmwareLane.Assembly.Instruction
import FirmwareLane.Assembly.Line
import FirmwareLane.Text.Numeral

/-!
# Operands

Reading the text of an operand as what its place in the instruction asks for: a register, an
immediate of some width, an offset with its base register, the target of a branch, or the set of
accesses that a fence orders.

An immediate may be an integer literal: an optional sign and digits, in base ten, or in base sixteen
or two behind the marks `0x` and `0b`.  Underscores may stand anywhere among the digits.  The digits
stand for a magnitude below `2 ^ 63`; anything larger is no literal.
-/

set_option autoImplicit false
namespace FirmwareLane
namespace Assembly

/-! ## Integer literals -/

namespace Literal

/-- The least magnitude that is too large for a literal. -/
def bound : Nat := Nat.pow 2 63

/-- The sign of a literal and the text after it. -/
def sign : List Char → Bool × List Char
  | '-' :: body => (true, body)
  | '+' :: body => (false, body)
  | body => (false, body)

/-- The base that a mark announces, and the digits after the mark. -/
def base : List Char → Nat × List Char
  | '0' :: 'x' :: digits => (16, digits)
  | '0' :: 'X' :: digits => (16, digits)
  | '0' :: 'b' :: digits => (2, digits)
  | '0' :: 'B' :: digits => (2, digits)
  | digits => (10, digits)

/-- The magnitude of a literal whose sign is already read. -/
def magnitude? (body : List Char) : Option Nat :=
  let (radix, digits) := base body
  (Text.Numeral.read? radix (digits.filter (· != '_'))).filter (· < bound)

/-- The integer that a text without surrounding blanks stands for. -/
def value? (literal : List Char) : Option Int :=
  let (negative, body) := sign literal
  (magnitude? body).map fun n ↦ if negative then -(n : Int) else (n : Int)

/-- The integer that an operand stands for, if it is a literal. -/
def read? (operand : List Char) : Option Int :=
  value? (Text.trim operand)

end Literal

/-! ## Operands -/

/-- The addresses of the declared labels. -/
abbrev Labels := List (String × Word)

namespace Operand

/-- The register that an operand names. -/
def register (operand : String) : Except Fault Register :=
  match Register.read? operand.toList with
  | some r => .ok r
  | none => .error (.invalidRegister (Text.trimmed operand))

/-- The integer that an operand stands for. -/
def integer (operand : String) : Except Fault Int :=
  match Literal.read? operand.toList with
  | some n => .ok n
  | none => .error (.invalidImmediate (Text.trimmed operand))

/-! ## Fields -/

/-- The least value of a signed field. -/
def least (bits : Nat) : Int := -(Nat.pow 2 (bits - 1))

/-- The greatest value of a signed field. -/
def greatest (bits : Nat) : Int := Nat.pow 2 (bits - 1) - 1

/-- An integer that a signed field of the given width can hold. -/
def signed (bits : Nat) (value : Int) : Except Fault (BitVec bits) :=
  if least bits ≤ value ∧ value ≤ greatest bits then .ok (BitVec.ofInt bits value)
  else .error (.outOfRange value (least bits) (greatest bits))

/-- The distance of a shift. -/
def shiftAmount (operand : String) : Except Fault (BitVec 5) := do
  let amount ← integer operand
  if 0 ≤ amount ∧ amount < 32 then .ok (BitVec.ofInt 5 amount)
  else .error (.shiftOutOfRange amount)

/-- Twenty upper bits, given as the unsigned number they are or as a negative one. -/
def upper (operand : String) : Except Fault (BitVec 20) := do
  let value ← integer operand
  if -(Nat.pow 2 19) ≤ value ∧ value < Nat.pow 2 20 then .ok (BitVec.ofInt 20 value)
  else .error (.upperOutOfRange value)

/-- A constant of 32 bits, given as a signed or an unsigned number. -/
def constant (operand : String) : Except Fault Word := do
  let value ← integer operand
  if -(Nat.pow 2 31) ≤ value ∧ value < Nat.pow 2 32 then .ok (BitVec.ofInt 32 value)
  else .error (.tooWide value)

/-! ## Offsets -/

/-- An offset and a base register: `offset(register)`, where the offset may be missing. -/
def memory (operand : String) : Except Fault (Int × Register) := do
  let text := Text.trim operand.toList
  match Text.cutAt? '(' text with
  | none => .error (.offsetExpected (String.ofList text))
  | some (before, after) =>
    match Text.dropLast? ')' after with
    | none => .error (.unbalancedParentheses (String.ofList text))
    | some inner =>
      let offsetText := Text.trim before
      let offset ← if offsetText.isEmpty then .ok 0 else integer (String.ofList offsetText)
      return (offset, ← register (String.ofList inner))

/-- The distance in bytes from an address to the target of a branch: a literal distance, or the
address of a label less the address of the branch. -/
def distance (labels : Labels) (address : Word) (operand : String) : Except Fault Int :=
  match integer operand with
  | .ok offset => .ok offset
  | .error fault =>
    if isIdentifier operand.toList then
      match labels.lookup operand with
      | some target => .ok (target.toNat - address.toNat)
      | none => .error (.undefinedLabel operand)
    else .error fault

/-- The offset of a branch or jump in units of two bytes, which together with the bit that is always
zero fills a signed field of the given width. -/
def target (bits : Nat) (labels : Labels) (address : Word) (operand : String) :
    Except Fault (BitVec bits) := do
  let offset ← distance labels address operand
  if offset % 2 ≠ 0 then .error (.oddTarget offset)
  else do
    let _ ← signed (bits + 1) offset
    return BitVec.ofInt bits (offset / 2)

/-! ## Fences -/

/-- The bit that an access letter stands for. -/
def accessBit? : Char → Option (BitVec 4)
  | 'i' => some 0b1000
  | 'o' => some 0b0100
  | 'r' => some 0b0010
  | 'w' => some 0b0001
  | _ => none

/-- The set that letters stand for when they are added to a set; no letter may be there already. -/
def accesses? : BitVec 4 → List Char → Option (BitVec 4)
  | set, [] => some set
  | set, c :: rest =>
    match accessBit? c with
    | none => none
    | some bit => if set &&& bit = 0 then accesses? (set ||| bit) rest else none

/-- The set of accesses that an operand of a fence names. -/
def fenceSet (operand : String) : Except Fault (BitVec 4) :=
  let text := Text.trim operand.toList
  match accesses? 0 (text.map Char.toLower) with
  | none => .error (.invalidFenceSet (String.ofList text))
  | some set => if set = 0 then .error .emptyFenceSet else .ok set

end Operand
end Assembly
end FirmwareLane
