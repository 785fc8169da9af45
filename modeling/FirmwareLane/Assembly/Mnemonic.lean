/-!
# Mnemonics

The instruction names of the assembly language.  A mnemonic is one of the forty base instructions,
grouped by the shape of their operands, or a pseudo-instruction that stands for base instructions
with some operands fixed.
-/

set_option autoImplicit false
namespace FirmwareLane
namespace Assembly

/-! ## Base instructions by shape -/

/-- Operations on two registers. -/
inductive RegisterOp where
  | add | sub | sll | slt | sltu | xor | srl | sra | or | and
  deriving DecidableEq, Repr

/-- Operations on a register and a signed immediate. -/
inductive ImmediateOp where
  | addi | slti | sltiu | xori | ori | andi
  deriving DecidableEq, Repr

/-- Shifts by a fixed amount. -/
inductive ShiftOp where
  | slli | srli | srai
  deriving DecidableEq, Repr

/-- Loads. -/
inductive LoadOp where
  | lb | lh | lw | lbu | lhu
  deriving DecidableEq, Repr

/-- Stores. -/
inductive StoreOp where
  | sb | sh | sw
  deriving DecidableEq, Repr

/-- Conditional branches. -/
inductive BranchOp where
  | beq | bne | blt | bge | bltu | bgeu
  deriving DecidableEq, Repr

/-- Instructions that take the upper twenty bits of a word. -/
inductive UpperOp where
  | lui | auipc
  deriving DecidableEq, Repr

/-- Calls of the environment. -/
inductive SystemOp where
  | ecall | ebreak
  deriving DecidableEq, Repr

/-- A base instruction without its operands. -/
inductive Base where
  | register (op : RegisterOp)
  | immediate (op : ImmediateOp)
  | shift (op : ShiftOp)
  | load (op : LoadOp)
  | store (op : StoreOp)
  | branch (op : BranchOp)
  | upper (op : UpperOp)
  | jal
  | jalr
  | fence
  | system (op : SystemOp)
  deriving DecidableEq, Repr

/-! ## Pseudo-instructions -/

/-- A pseudo-instruction that stands for one base instruction. -/
inductive Pseudo where
  | nop | mv | not | neg | seqz | snez | sltz | sgtz | j | jr | ret
  | beqz | bnez | blez | bgez | bltz | bgtz | bgt | ble | bgtu | bleu
  deriving DecidableEq, Repr

/-- The name of an instruction.  Loading a constant stands apart, since it alone stands for one or
two base instructions. -/
inductive Mnemonic where
  | base (b : Base)
  | pseudo (p : Pseudo)
  | loadImmediate
  deriving DecidableEq, Repr

namespace Mnemonic

/-! ## Names -/

/-- The base instructions by name. -/
def baseNames : List (String × Base) :=
  [("add", .register .add), ("sub", .register .sub), ("sll", .register .sll),
   ("slt", .register .slt), ("sltu", .register .sltu), ("xor", .register .xor),
   ("srl", .register .srl), ("sra", .register .sra), ("or", .register .or),
   ("and", .register .and),
   ("addi", .immediate .addi), ("slti", .immediate .slti), ("sltiu", .immediate .sltiu),
   ("xori", .immediate .xori), ("ori", .immediate .ori), ("andi", .immediate .andi),
   ("slli", .shift .slli), ("srli", .shift .srli), ("srai", .shift .srai),
   ("lb", .load .lb), ("lh", .load .lh), ("lw", .load .lw), ("lbu", .load .lbu),
   ("lhu", .load .lhu),
   ("sb", .store .sb), ("sh", .store .sh), ("sw", .store .sw),
   ("beq", .branch .beq), ("bne", .branch .bne), ("blt", .branch .blt), ("bge", .branch .bge),
   ("bltu", .branch .bltu), ("bgeu", .branch .bgeu),
   ("lui", .upper .lui), ("auipc", .upper .auipc),
   ("jal", .jal), ("jalr", .jalr), ("fence", .fence),
   ("ecall", .system .ecall), ("ebreak", .system .ebreak)]

/-- The pseudo-instructions for one base instruction by name. -/
def pseudoNames : List (String × Pseudo) :=
  [("nop", .nop), ("mv", .mv), ("not", .not), ("neg", .neg), ("seqz", .seqz), ("snez", .snez),
   ("sltz", .sltz), ("sgtz", .sgtz), ("j", .j), ("jr", .jr), ("ret", .ret), ("beqz", .beqz),
   ("bnez", .bnez), ("blez", .blez), ("bgez", .bgez), ("bltz", .bltz), ("bgtz", .bgtz),
   ("bgt", .bgt), ("ble", .ble), ("bgtu", .bgtu), ("bleu", .bleu)]

/-- The name of the instruction that loads a constant. -/
def loadName : String := "li"

/-- The names that stand for instructions of other names.  They are all that the size of a statement
depends on; what a name stands for is looked up when the statement is resolved. -/
def derivedNames : List String :=
  ["nop", "mv", "not", "neg", "seqz", "snez", "sltz", "sgtz", "li", "j", "jr", "ret", "beqz",
   "bnez", "blez", "bgez", "bltz", "bgtz", "bgt", "ble", "bgtu", "bleu"]

/-- Whether a name in lower case is the name of an instruction. -/
def isKnown (name : String) : Bool :=
  (baseNames.lookup name).isSome || derivedNames.contains name

/-- The mnemonic of a name in lower case. -/
def ofName? (name : String) : Option Mnemonic :=
  match baseNames.lookup name with
  | some b => some (.base b)
  | none =>
    if name = loadName then some .loadImmediate else (pseudoNames.lookup name).map .pseudo

end Mnemonic
end Assembly
end FirmwareLane
