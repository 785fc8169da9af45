import FirmwareLane.Assembly.Mnemonic
import FirmwareLane.Assembly.Register

/-!
# Base instructions and their words

A base instruction with its operands resolved to registers and fields of fixed width, and the
32-bit word that stands for it.  Branch and jump offsets are even, so they are kept in units of two
bytes and every value of the field is meaningful.
-/

set_option autoImplicit false
namespace FirmwareLane
namespace Assembly

/-- A machine word. -/
abbrev Word := BitVec 32

/-- A base instruction with its operands. -/
inductive Instruction where
  | register (op : RegisterOp) (rd rs1 rs2 : Register)
  | immediate (op : ImmediateOp) (rd rs1 : Register) (value : BitVec 12)
  | shift (op : ShiftOp) (rd rs1 : Register) (amount : BitVec 5)
  | load (op : LoadOp) (rd base : Register) (offset : BitVec 12)
  | store (op : StoreOp) (source base : Register) (offset : BitVec 12)
  /-- The offset is in units of two bytes. -/
  | branch (op : BranchOp) (rs1 rs2 : Register) (offset : BitVec 12)
  | upper (op : UpperOp) (rd : Register) (value : BitVec 20)
  /-- The offset is in units of two bytes. -/
  | jal (rd : Register) (offset : BitVec 20)
  | jalr (rd base : Register) (offset : BitVec 12)
  | fence (before after : BitVec 4)
  | system (op : SystemOp)
  deriving DecidableEq, Repr

/-! ## The fields that name an operation -/

/-- The field in bits 12 to 14. -/
def RegisterOp.funct3 : RegisterOp → BitVec 3
  | .add => 0b000
  | .sub => 0b000
  | .sll => 0b001
  | .slt => 0b010
  | .sltu => 0b011
  | .xor => 0b100
  | .srl => 0b101
  | .sra => 0b101
  | .or => 0b110
  | .and => 0b111

/-- The field in bits 25 to 31, which tells subtraction from addition and the arithmetic shift from
the logical one. -/
def RegisterOp.funct7 : RegisterOp → BitVec 7
  | .sub => 0b0100000
  | .sra => 0b0100000
  | _ => 0

/-- The field in bits 12 to 14. -/
def ImmediateOp.funct3 : ImmediateOp → BitVec 3
  | .addi => 0b000
  | .slti => 0b010
  | .sltiu => 0b011
  | .xori => 0b100
  | .ori => 0b110
  | .andi => 0b111

/-- The field in bits 12 to 14. -/
def ShiftOp.funct3 : ShiftOp → BitVec 3
  | .slli => 0b001
  | .srli => 0b101
  | .srai => 0b101

/-- The field in bits 25 to 31. -/
def ShiftOp.funct7 : ShiftOp → BitVec 7
  | .srai => 0b0100000
  | _ => 0

/-- The field in bits 12 to 14. -/
def LoadOp.funct3 : LoadOp → BitVec 3
  | .lb => 0b000
  | .lh => 0b001
  | .lw => 0b010
  | .lbu => 0b100
  | .lhu => 0b101

/-- The field in bits 12 to 14. -/
def StoreOp.funct3 : StoreOp → BitVec 3
  | .sb => 0b000
  | .sh => 0b001
  | .sw => 0b010

/-- The field in bits 12 to 14. -/
def BranchOp.funct3 : BranchOp → BitVec 3
  | .beq => 0b000
  | .bne => 0b001
  | .blt => 0b100
  | .bge => 0b101
  | .bltu => 0b110
  | .bgeu => 0b111

/-- The major opcode. -/
def UpperOp.opcode : UpperOp → BitVec 7
  | .lui => 0b0110111
  | .auipc => 0b0010111

/-- The field in bits 20 to 31. -/
def SystemOp.funct12 : SystemOp → BitVec 12
  | .ecall => 0
  | .ebreak => 1

/-! ## The word of an instruction -/

namespace Instruction

/-- The word that stands for an instruction, its fields written from bit 31 down to bit 0. -/
def encode : Instruction → Word
  | .register op rd rs1 rs2 => op.funct7 ++ rs2 ++ rs1 ++ op.funct3 ++ rd ++ 0b0110011#7
  | .immediate op rd rs1 value => value ++ rs1 ++ op.funct3 ++ rd ++ 0b0010011#7
  | .shift op rd rs1 amount => op.funct7 ++ amount ++ rs1 ++ op.funct3 ++ rd ++ 0b0010011#7
  | .load op rd base offset => offset ++ base ++ op.funct3 ++ rd ++ 0b0000011#7
  | .store op source base offset =>
    offset.extractLsb' 5 7 ++ source ++ base ++ op.funct3 ++ offset.extractLsb' 0 5 ++ 0b0100011#7
  | .branch op rs1 rs2 offset =>
    offset.extractLsb' 11 1 ++ offset.extractLsb' 4 6 ++ rs2 ++ rs1 ++ op.funct3 ++
      offset.extractLsb' 0 4 ++ offset.extractLsb' 10 1 ++ 0b1100011#7
  | .upper op rd value => value ++ rd ++ op.opcode
  | .jal rd offset =>
    offset.extractLsb' 19 1 ++ offset.extractLsb' 0 10 ++ offset.extractLsb' 10 1 ++
      offset.extractLsb' 11 8 ++ rd ++ 0b1101111#7
  | .jalr rd base offset => offset ++ base ++ 0b000#3 ++ rd ++ 0b1100111#7
  | .fence before after =>
    0b0000#4 ++ before ++ after ++ 0b00000#5 ++ 0b000#3 ++ 0b00000#5 ++ 0b0001111#7
  | .system op => op.funct12 ++ 0b00000#5 ++ 0b000#3 ++ 0b00000#5 ++ 0b1110011#7

/-- The instructions that leave the given constant in a register: one addition if the constant fits
its signed field, otherwise the upper bits and, unless it is zero, the addition of the rest.  The
upper bits are rounded so that the rest, which is added with its sign, gives the constant. -/
def loading (rd : Register) (constant : Word) : List Instruction :=
  let low : BitVec 12 := constant.extractLsb' 0 12
  if low.signExtend 32 = constant then [.immediate .addi rd Register.zero low]
  else
    let high : BitVec 20 := (constant - low.signExtend 32).extractLsb' 12 20
    .upper .lui rd high :: if low = 0 then [] else [.immediate .addi rd rd low]

end Instruction
end Assembly
end FirmwareLane
