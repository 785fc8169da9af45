import FirmwareLane.Text.Numeral

/-!
# What can be wrong with a program

The causes for which a source text is refused, and their wording.  A fault is always reported with
the line it was found on.
-/

set_option autoImplicit false
namespace FirmwareLane
namespace Assembly

/-- How many operands a mnemonic takes. -/
inductive Arity where
  | exactly (n : Nat)
  | oneOrTwo
  | oneToThree
  | noneOrTwo
  deriving DecidableEq, Repr

/-- The wording of a number of operands. -/
def Arity.describe : Arity → String
  | .exactly n => Text.Numeral.decimal n
  | .oneOrTwo => "1 or 2"
  | .oneToThree => "1 to 3"
  | .noneOrTwo => "0 or 2"

/-- A reason to refuse a line. -/
inductive Fault where
  /-- The label was declared before. -/
  | duplicateLabel (name : String)
  /-- No instruction has this name. -/
  | unknownMnemonic (name : String)
  /-- The directive has no meaning in a flat program. -/
  | unsupportedDirective (name : String)
  /-- Nothing stands between two commas, or before the first or after the last one. -/
  | emptyOperand (statement : String)
  /-- The mnemonic takes another number of operands. -/
  | operandCount (expected : Arity) (found : Nat)
  /-- The operand names no register. -/
  | invalidRegister (operand : String)
  /-- The operand is no integer literal. -/
  | invalidImmediate (operand : String)
  /-- The operand should be an offset and a register in parentheses. -/
  | offsetExpected (operand : String)
  /-- The parenthesis of a memory operand does not end it. -/
  | unbalancedParentheses (operand : String)
  /-- The value does not fit the field of the instruction. -/
  | outOfRange (value least greatest : Int)
  /-- A register cannot be shifted this far. -/
  | shiftOutOfRange (value : Int)
  /-- The value does not fit the upper twenty bits. -/
  | upperOutOfRange (value : Int)
  /-- Instructions start at even addresses. -/
  | oddTarget (offset : Int)
  /-- No line declares the label. -/
  | undefinedLabel (name : String)
  /-- The operand is no set of the letters `i`, `o`, `r` and `w`. -/
  | invalidFenceSet (operand : String)
  /-- The operand is the set of no accesses. -/
  | emptyFenceSet
  /-- The value is neither a signed nor an unsigned number of 32 bits. -/
  | tooWide (value : Int)
  deriving DecidableEq, Repr

open Text.Numeral (integer decimal) in
/-- The wording of a fault. -/
def Fault.message : Fault → String
  | .duplicateLabel name => "duplicate label '" ++ name ++ "'"
  | .unknownMnemonic name => "unknown mnemonic '" ++ name ++ "'"
  | .unsupportedDirective name => "unsupported directive '" ++ name ++ "'"
  | .emptyOperand statement => "empty operand in '" ++ statement ++ "'"
  | .operandCount expected found =>
    "expected " ++ expected.describe ++ " operands, found " ++ decimal found
  | .invalidRegister operand => "invalid register '" ++ operand ++ "'"
  | .invalidImmediate operand => "invalid immediate '" ++ operand ++ "'"
  | .offsetExpected operand => "expected offset(register), found '" ++ operand ++ "'"
  | .unbalancedParentheses operand => "unbalanced parentheses in '" ++ operand ++ "'"
  | .outOfRange value least greatest =>
    "immediate " ++ integer value ++ " out of range " ++ integer least ++ ".." ++ integer greatest
  | .shiftOutOfRange value => "shift amount " ++ integer value ++ " out of range 0..31"
  | .upperOutOfRange value => "upper immediate " ++ integer value ++ " out of range"
  | .oddTarget offset => "target offset " ++ integer offset ++ " is not a multiple of 2"
  | .undefinedLabel name => "undefined label '" ++ name ++ "'"
  | .invalidFenceSet operand => "invalid fence set '" ++ operand ++ "'"
  | .emptyFenceSet => "empty fence set"
  | .tooWide value => "immediate " ++ integer value ++ " does not fit in 32 bits"

/-- A fault and the number of the line it was found on, counted from one. -/
structure Failure where
  line : Nat
  fault : Fault
  deriving DecidableEq, Repr

/-- The wording of a failure: the line, then the fault. -/
def Failure.message (failure : Failure) : String :=
  "line " ++ Text.Numeral.decimal failure.line ++ ": " ++ failure.fault.message

end Assembly
end FirmwareLane
