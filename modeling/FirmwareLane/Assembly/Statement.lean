import FirmwareLane.Assembly.Operand

/-!
# Statements

A statement is the name of an instruction with the texts of its operands.  `Statement.size` says how
many words it takes, which is known before any label has an address; `Statement.instructions`
resolves it to base instructions at an address, under a table of labels.  Each of them looks the
name up for itself.

The operands of a statement are read in a fixed order, and the first one that is wrong decides the
fault.
-/

set_option autoImplicit false
namespace FirmwareLane
namespace Assembly

/-- An instruction of a program: the line it stands on, its name in lower case and its operands. -/
structure Statement where
  line : Nat
  name : String
  operands : List String
  deriving DecidableEq, Repr

namespace Statement

open Operand

/-- The fault of a statement with too few or too many operands. -/
def miscounted {α : Type} (expected : Arity) (operands : List String) : Except Fault α :=
  .error (.operandCount expected operands.length)

/-! ## Base instructions -/

/-- A base instruction with its operands read. -/
def baseInstruction (labels : Labels) (address : Word) (operands : List String) :
    Base → Except Fault Instruction
  | .register op =>
    match operands with
    | [d, a, b] => do
      let rs2 ← register b
      let rs1 ← register a
      return .register op (← register d) rs1 rs2
    | _ => miscounted (.exactly 3) operands
  | .immediate op =>
    match operands with
    | [d, a, n] => do
      let value ← signed 12 (← integer n)
      let rs1 ← register a
      return .immediate op (← register d) rs1 value
    | _ => miscounted (.exactly 3) operands
  | .shift op =>
    match operands with
    | [d, a, n] => do
      let amount ← shiftAmount n
      let rs1 ← register a
      return .shift op (← register d) rs1 amount
    | _ => miscounted (.exactly 3) operands
  | .load op =>
    match operands with
    | [d, m] => do
      let (offset, base) ← memory m
      let offset ← signed 12 offset
      return .load op (← register d) base offset
    | _ => miscounted (.exactly 2) operands
  | .store op =>
    match operands with
    | [s, m] => do
      let (offset, base) ← memory m
      let offset ← signed 12 offset
      return .store op (← register s) base offset
    | _ => miscounted (.exactly 2) operands
  | .branch op =>
    match operands with
    | [a, b, t] => do
      let offset ← target 12 labels address t
      let rs2 ← register b
      return .branch op (← register a) rs2 offset
    | _ => miscounted (.exactly 3) operands
  | .upper op =>
    match operands with
    | [d, n] => do
      let value ← upper n
      return .upper op (← register d) value
    | _ => miscounted (.exactly 2) operands
  | .jal =>
    match operands with
    | [t] => do return .jal Register.returnAddress (← target 20 labels address t)
    | [d, t] => do
      let rd ← register d
      return .jal rd (← target 20 labels address t)
    | _ => miscounted .oneOrTwo operands
  | .jalr =>
    match operands with
    | [a] => do return .jalr Register.returnAddress (← register a) 0
    | [d, a] =>
      if a.toList.contains '(' then do
        let (offset, base) ← memory a
        let rd ← register d
        return .jalr rd base (← signed 12 offset)
      else do
        let rd ← register d
        return .jalr rd (← register a) 0
    | [d, a, n] => do
      let rd ← register d
      let base ← register a
      return .jalr rd base (← signed 12 (← integer n))
    | _ => miscounted .oneToThree operands
  | .fence =>
    match operands with
    | [] => .ok (.fence 0b1111 0b1111)
    | [p, s] => do
      let before ← fenceSet p
      return .fence before (← fenceSet s)
    | _ => miscounted .noneOrTwo operands
  | .system op =>
    match operands with
    | [] => .ok (.system op)
    | _ => miscounted (.exactly 0) operands

/-! ## Pseudo-instructions -/

/-- A pseudo-instruction of a destination and a source register. -/
def ofRegisters (operands : List String) (make : Register → Register → Instruction) :
    Except Fault Instruction :=
  match operands with
  | [d, s] => do
    let source ← register s
    return make (← register d) source
  | _ => miscounted (.exactly 2) operands

/-- A branch on a comparison with zero. -/
def ofZeroTest (labels : Labels) (address : Word) (operands : List String)
    (make : Register → BitVec 12 → Instruction) : Except Fault Instruction :=
  match operands with
  | [r, t] => do
    let tested ← register r
    return make tested (← target 12 labels address t)
  | _ => miscounted (.exactly 2) operands

/-- A branch whose two registers are compared the other way round. -/
def ofSwapped (labels : Labels) (address : Word) (operands : List String) (op : BranchOp) :
    Except Fault Instruction :=
  match operands with
  | [a, b, t] => do
    let offset ← target 12 labels address t
    let rs2 ← register a
    return .branch op (← register b) rs2 offset
  | _ => miscounted (.exactly 3) operands

open Register (zero returnAddress) in
/-- The base instruction that a pseudo-instruction stands for. -/
def pseudoInstruction (labels : Labels) (address : Word) (operands : List String) :
    Pseudo → Except Fault Instruction
  | .nop =>
    match operands with
    | [] => .ok (.immediate .addi zero zero 0)
    | _ => miscounted (.exactly 0) operands
  | .mv => ofRegisters operands fun rd rs ↦ .immediate .addi rd rs 0
  | .not => ofRegisters operands fun rd rs ↦ .immediate .xori rd rs (-1)
  | .neg => ofRegisters operands fun rd rs ↦ .register .sub rd zero rs
  | .seqz => ofRegisters operands fun rd rs ↦ .immediate .sltiu rd rs 1
  | .snez => ofRegisters operands fun rd rs ↦ .register .sltu rd zero rs
  | .sltz => ofRegisters operands fun rd rs ↦ .register .slt rd rs zero
  | .sgtz => ofRegisters operands fun rd rs ↦ .register .slt rd zero rs
  | .j =>
    match operands with
    | [t] => do return .jal zero (← target 20 labels address t)
    | _ => miscounted (.exactly 1) operands
  | .jr =>
    match operands with
    | [a] => do return .jalr zero (← register a) 0
    | _ => miscounted (.exactly 1) operands
  | .ret =>
    match operands with
    | [] => .ok (.jalr zero returnAddress 0)
    | _ => miscounted (.exactly 0) operands
  | .beqz => ofZeroTest labels address operands fun rs t ↦ .branch .beq rs zero t
  | .bnez => ofZeroTest labels address operands fun rs t ↦ .branch .bne rs zero t
  | .blez => ofZeroTest labels address operands fun rs t ↦ .branch .bge zero rs t
  | .bgez => ofZeroTest labels address operands fun rs t ↦ .branch .bge rs zero t
  | .bltz => ofZeroTest labels address operands fun rs t ↦ .branch .blt rs zero t
  | .bgtz => ofZeroTest labels address operands fun rs t ↦ .branch .blt zero rs t
  | .bgt => ofSwapped labels address operands .blt
  | .ble => ofSwapped labels address operands .bge
  | .bgtu => ofSwapped labels address operands .bltu
  | .bleu => ofSwapped labels address operands .bgeu

/-! ## Loading a constant -/

/-- The register and the constant of a statement that loads a constant. -/
def loadOperands (operands : List String) : Except Fault (Register × Word) :=
  match operands with
  | [d, n] => do
    let rd ← register d
    return (rd, ← constant n)
  | _ => miscounted (.exactly 2) operands

/-- The instructions that load the constant of a statement. -/
def loadInstructions (operands : List String) : Except Fault (List Instruction) := do
  let (rd, n) ← loadOperands operands
  return Instruction.loading rd n

/-! ## All statements -/

/-- The number of words that a statement takes. -/
def size (statement : Statement) : Except Fault Nat :=
  if statement.name = Mnemonic.loadName then do
    return (← loadInstructions statement.operands).length
  else if Mnemonic.isKnown statement.name then .ok 1
  else .error (.unknownMnemonic statement.name)

/-- The base instructions that a statement stands for at an address. -/
def instructions (labels : Labels) (address : Word) (statement : Statement) :
    Except Fault (List Instruction) :=
  match Mnemonic.ofName? statement.name with
  | some .loadImmediate => loadInstructions statement.operands
  | some (.base b) => do return [← baseInstruction labels address statement.operands b]
  | some (.pseudo p) => do return [← pseudoInstruction labels address statement.operands p]
  | none => .error (.unknownMnemonic statement.name)

end Statement
end Assembly
end FirmwareLane
