import FirmwareLane.Assembly.Instruction
import FirmwareLane.Keyed
import Mathlib.Data.BitVec

/-!
# Reading a word back

The instruction set says which fields a word has and what they mean, and the words that are put out
are to be read that way.  This file is that reading, written from the layouts of the instruction
set alone: nothing in it looks at how a word is put together.  It is deliberately plain.  A field is
a range of bits, an immediate is the ranges that it is scattered over put back in order, and the
instructions are one table of their names against the fields that tell them apart.

`Word.decode` turns a word into the name of an instruction with the numbers of its registers and
the value of its immediate, which is a signed number wherever the instruction set extends the sign.

## What is here

* The fields of a word, `Format` and `formats`, and `Word.decode`.
* `decode_encode`: an encoded instruction is read back as itself.  It is put together from one lemma
  for each field of a word that is written as a row of fields.
-/

set_option autoImplicit false
namespace FirmwareLane
namespace Assembly

/-! ## Formats -/

/-- The shape of an instruction and the fields that name it among those of its shape. -/
inductive Format where
  | register (funct7 : BitVec 7) (funct3 : BitVec 3)
  | immediate (funct3 : BitVec 3)
  | shift (funct7 : BitVec 7) (funct3 : BitVec 3)
  | load (funct3 : BitVec 3)
  | store (funct3 : BitVec 3)
  | branch (funct3 : BitVec 3)
  | upper (opcode : BitVec 7)
  | jal
  | jalr
  | fence
  | system (funct12 : BitVec 12)
  deriving DecidableEq, Repr

/-- The base instructions of the 32-bit integer instruction set. -/
def formats : List (String × Format) :=
  [("lui", .upper 0b0110111), ("auipc", .upper 0b0010111),
   ("jal", .jal), ("jalr", .jalr),
   ("beq", .branch 0b000), ("bne", .branch 0b001), ("blt", .branch 0b100), ("bge", .branch 0b101),
   ("bltu", .branch 0b110), ("bgeu", .branch 0b111),
   ("lb", .load 0b000), ("lh", .load 0b001), ("lw", .load 0b010), ("lbu", .load 0b100),
   ("lhu", .load 0b101),
   ("sb", .store 0b000), ("sh", .store 0b001), ("sw", .store 0b010),
   ("addi", .immediate 0b000), ("slti", .immediate 0b010), ("sltiu", .immediate 0b011),
   ("xori", .immediate 0b100), ("ori", .immediate 0b110), ("andi", .immediate 0b111),
   ("slli", .shift 0b0000000 0b001), ("srli", .shift 0b0000000 0b101),
   ("srai", .shift 0b0100000 0b101),
   ("add", .register 0b0000000 0b000), ("sub", .register 0b0100000 0b000),
   ("sll", .register 0b0000000 0b001), ("slt", .register 0b0000000 0b010),
   ("sltu", .register 0b0000000 0b011), ("xor", .register 0b0000000 0b100),
   ("srl", .register 0b0000000 0b101), ("sra", .register 0b0100000 0b101),
   ("or", .register 0b0000000 0b110), ("and", .register 0b0000000 0b111),
   ("fence", .fence), ("ecall", .system 0b000000000000), ("ebreak", .system 0b000000000001)]

/-- The name of the instruction of a format. -/
def Format.mnemonic? (format : Format) : Option String :=
  (formats.find? fun entry ↦ entry.2 == format).map (·.1)

/-! ## Operands -/

/-- The accesses to memory and to devices that a fence orders. -/
structure Accesses where
  input : Bool
  output : Bool
  read : Bool
  write : Bool
  deriving DecidableEq, Repr

/-- The operands of an instruction: registers by their number, immediates by their value. -/
inductive Operands where
  | register (rd rs1 rs2 : Nat)
  | immediate (rd rs1 : Nat) (value : Int)
  | shift (rd rs1 amount : Nat)
  | store (rs1 rs2 : Nat) (offset : Int)
  | branch (rs1 rs2 : Nat) (offset : Int)
  | upper (rd value : Nat)
  | jump (rd : Nat) (offset : Int)
  | fence (before after : Accesses)
  | none
  deriving DecidableEq, Repr

/-- An instruction as it is read from a word. -/
structure Decoded where
  mnemonic : String
  operands : Operands
  deriving DecidableEq, Repr

/-! ## The fields of a word -/

namespace Word

variable (w : Word)

def opcode : BitVec 7 := w.extractLsb' 0 7
def rd : BitVec 5 := w.extractLsb' 7 5
def funct3 : BitVec 3 := w.extractLsb' 12 3
def rs1 : BitVec 5 := w.extractLsb' 15 5
def rs2 : BitVec 5 := w.extractLsb' 20 5
def funct7 : BitVec 7 := w.extractLsb' 25 7
def funct12 : BitVec 12 := w.extractLsb' 20 12

/-- The immediate of arithmetic instructions, loads and indirect jumps. -/
def immediateI : Int := (w.extractLsb' 20 12).toInt

/-- The offset of stores: the upper seven bits stand above the lower five. -/
def immediateS : Int := (w.extractLsb' 25 7 ++ w.extractLsb' 7 5).toInt

/-- The offset of branches.  Its lowest bit is zero and has no place in the word. -/
def immediateB : Int :=
  (w.extractLsb' 31 1 ++ w.extractLsb' 7 1 ++ w.extractLsb' 25 6 ++ w.extractLsb' 8 4 ++ 0#1).toInt

/-- The upper twenty bits, as a number of their own. -/
def immediateU : Nat := (w.extractLsb' 12 20).toNat

/-- The offset of jumps.  Its lowest bit is zero and has no place in the word. -/
def immediateJ : Int :=
  (w.extractLsb' 31 1 ++ w.extractLsb' 12 8 ++ w.extractLsb' 20 1 ++ w.extractLsb' 21 10 ++
    0#1).toInt

/-- Four bits as the set of accesses that they stand for. -/
def accesses (bits : BitVec 4) : Accesses :=
  ⟨bits.getLsbD 3, bits.getLsbD 2, bits.getLsbD 1, bits.getLsbD 0⟩

/-- The format of a word. -/
def format? : Option Format :=
  match w.opcode with
  | 0b0110011 => some (.register w.funct7 w.funct3)
  | 0b0010011 =>
    if w.funct3 = 0b001 ∨ w.funct3 = 0b101 then some (.shift w.funct7 w.funct3)
    else some (.immediate w.funct3)
  | 0b0000011 => some (.load w.funct3)
  | 0b0100011 => some (.store w.funct3)
  | 0b1100011 => some (.branch w.funct3)
  | 0b0110111 => some (.upper 0b0110111)
  | 0b0010111 => some (.upper 0b0010111)
  | 0b1101111 => some .jal
  | 0b1100111 => if w.funct3 = 0 then some .jalr else none
  | 0b0001111 => if w.funct3 = 0 ∧ w.extractLsb' 28 4 = 0 then some .fence else none
  | 0b1110011 =>
    if w.funct3 = 0 ∧ w.rd = 0 ∧ w.rs1 = 0 then some (.system w.funct12) else none
  | _ => none

/-- The operands of a word of a format. -/
def operands : Format → Operands
  | .register _ _ => .register w.rd.toNat w.rs1.toNat w.rs2.toNat
  | .immediate _ | .load _ | .jalr => .immediate w.rd.toNat w.rs1.toNat w.immediateI
  | .shift _ _ => .shift w.rd.toNat w.rs1.toNat w.rs2.toNat
  | .store _ => .store w.rs1.toNat w.rs2.toNat w.immediateS
  | .branch _ => .branch w.rs1.toNat w.rs2.toNat w.immediateB
  | .upper _ => .upper w.rd.toNat w.immediateU
  | .jal => .jump w.rd.toNat w.immediateJ
  | .fence => .fence (accesses (w.extractLsb' 24 4)) (accesses (w.extractLsb' 20 4))
  | .system _ => .none

/-- The instruction that a word stands for. -/
def decode : Option Decoded :=
  w.format?.bind fun format ↦ format.mnemonic?.map fun name ↦ ⟨name, w.operands format⟩

/-! ## Words that are written as a row of fields

In a row of fields that fills a word, a field is found by the widths of those behind it. -/

theorem extractLsb'_append {v w start length : Nat} {high : BitVec v} {low : BitVec w}
    {field : BitVec length} (h : w ≤ start)
    (hfield : high.extractLsb' (start - w) length = field) :
    (high ++ low).extractLsb' start length = field :=
  (BitVec.extractLsb'_append_eq_of_le h).trans hfield

section Rows

variable (op : BitVec 7) (d : BitVec 5) (f : BitVec 3) (a b : BitVec 5) (g : BitVec 7)

theorem opcode_append (x : BitVec 25) : opcode (x ++ op) = op :=
  BitVec.extractLsb'_append_eq_right

theorem rd_append (x : BitVec 20) : rd (x ++ d ++ op) = d :=
  extractLsb'_append (by decide) BitVec.extractLsb'_append_eq_right

theorem funct3_append (x : BitVec 17) : funct3 (x ++ f ++ d ++ op) = f :=
  extractLsb'_append (by decide) <| extractLsb'_append (by decide)
    BitVec.extractLsb'_append_eq_right

theorem rs1_append (x : BitVec 12) : rs1 (x ++ a ++ f ++ d ++ op) = a :=
  extractLsb'_append (by decide) <| extractLsb'_append (by decide) <|
    extractLsb'_append (by decide) BitVec.extractLsb'_append_eq_right

theorem funct12_append (x : BitVec 12) : funct12 (x ++ a ++ f ++ d ++ op) = x :=
  extractLsb'_append (by decide) <| extractLsb'_append (by decide) <|
    extractLsb'_append (by decide) BitVec.extractLsb'_append_eq_left

theorem immediateI_append (x : BitVec 12) : immediateI (x ++ a ++ f ++ d ++ op) = x.toInt :=
  congrArg BitVec.toInt (funct12_append op d f a x)

theorem rs2_append : rs2 (g ++ b ++ a ++ f ++ d ++ op) = b :=
  extractLsb'_append (by decide) <| extractLsb'_append (by decide) <|
    extractLsb'_append (by decide) <| extractLsb'_append (by decide)
      BitVec.extractLsb'_append_eq_right

theorem funct7_append : funct7 (g ++ b ++ a ++ f ++ d ++ op) = g :=
  extractLsb'_append (by decide) <| extractLsb'_append (by decide) <|
    extractLsb'_append (by decide) <| extractLsb'_append (by decide)
      BitVec.extractLsb'_append_eq_left

/-- The field behind the register in a word of upper bits. -/
theorem immediateU_append (x : BitVec 20) : immediateU (x ++ d ++ op) = x.toNat :=
  congrArg BitVec.toNat <|
    extractLsb'_append (by decide) BitVec.extractLsb'_append_eq_left

end Rows

/-! ### Scattered fields -/

section Branches

-- two pieces of the offset stand where other words have their destination
variable (op : BitVec 7) (z : BitVec 1) (y : BitVec 4) (f : BitVec 3) (a b : BitVec 5)

theorem funct3_branch (x : BitVec 17) : funct3 (x ++ f ++ y ++ z ++ op) = f :=
  extractLsb'_append (by decide) <| extractLsb'_append (by decide) <|
    extractLsb'_append (by decide) BitVec.extractLsb'_append_eq_right

theorem rs1_branch (x : BitVec 12) : rs1 (x ++ a ++ f ++ y ++ z ++ op) = a :=
  extractLsb'_append (by decide) <| extractLsb'_append (by decide) <|
    extractLsb'_append (by decide) <| extractLsb'_append (by decide)
      BitVec.extractLsb'_append_eq_right

theorem rs2_branch (x : BitVec 7) : rs2 (x ++ b ++ a ++ f ++ y ++ z ++ op) = b :=
  extractLsb'_append (by decide) <| extractLsb'_append (by decide) <|
    extractLsb'_append (by decide) <| extractLsb'_append (by decide) <|
    extractLsb'_append (by decide) BitVec.extractLsb'_append_eq_right

end Branches

section Fences

-- the three parts of what other words have as their immediate
variable (m p s : BitVec 4) (a : BitVec 5) (f : BitVec 3) (d : BitVec 5) (op : BitVec 7)

theorem margin_fence : (m ++ p ++ s ++ a ++ f ++ d ++ op).extractLsb' 28 4 = m :=
  extractLsb'_append (by decide) <| extractLsb'_append (by decide) <|
    extractLsb'_append (by decide) <| extractLsb'_append (by decide) <|
    extractLsb'_append (by decide) BitVec.extractLsb'_append_eq_left

theorem before_fence : (m ++ p ++ s ++ a ++ f ++ d ++ op).extractLsb' 24 4 = p :=
  extractLsb'_append (by decide) <| extractLsb'_append (by decide) <|
    extractLsb'_append (by decide) <| extractLsb'_append (by decide) <|
    extractLsb'_append (by decide) BitVec.extractLsb'_append_eq_right

theorem after_fence : (m ++ p ++ s ++ a ++ f ++ d ++ op).extractLsb' 20 4 = s :=
  extractLsb'_append (by decide) <| extractLsb'_append (by decide) <|
    extractLsb'_append (by decide) <| extractLsb'_append (by decide)
      BitVec.extractLsb'_append_eq_right

end Fences

theorem immediateS_encode (offset : BitVec 12) (op : BitVec 7) (f : BitVec 3) (a b : BitVec 5) :
    immediateS (offset.extractLsb' 5 7 ++ b ++ a ++ f ++ offset.extractLsb' 0 5 ++ op) =
      offset.toInt := by
  rw [immediateS, ← rd, ← funct7, rd_append, funct7_append]
  exact congrArg BitVec.toInt BitVec.extractLsb'_append_extractLsb'

theorem immediateB_encode (offset : BitVec 12) (op : BitVec 7) (f : BitVec 3) (a b : BitVec 5) :
    immediateB (offset.extractLsb' 11 1 ++ offset.extractLsb' 4 6 ++ b ++ a ++ f ++
      offset.extractLsb' 0 4 ++ offset.extractLsb' 10 1 ++ op) = 2 * offset.toInt := by
  generalize hw : offset.extractLsb' 11 1 ++ offset.extractLsb' 4 6 ++ b ++ a ++ f ++
    offset.extractLsb' 0 4 ++ offset.extractLsb' 10 1 ++ op = w
  have h10 : w.extractLsb' 7 1 = offset.extractLsb' 10 1 :=
    hw ▸ extractLsb'_append (by decide) BitVec.extractLsb'_append_eq_right
  have h0 : w.extractLsb' 8 4 = offset.extractLsb' 0 4 :=
    hw ▸ extractLsb'_append (by decide) (extractLsb'_append (by decide)
      BitVec.extractLsb'_append_eq_right)
  have h4 : w.extractLsb' 25 6 = offset.extractLsb' 4 6 :=
    hw ▸ extractLsb'_append (by decide) (extractLsb'_append (by decide) <|
      extractLsb'_append (by decide) <| extractLsb'_append (by decide) <|
      extractLsb'_append (by decide) <| extractLsb'_append (by decide)
        BitVec.extractLsb'_append_eq_right)
  have h11 : w.extractLsb' 31 1 = offset.extractLsb' 11 1 :=
    hw ▸ extractLsb'_append (by decide) (extractLsb'_append (by decide) <|
      extractLsb'_append (by decide) <| extractLsb'_append (by decide) <|
      extractLsb'_append (by decide) <| extractLsb'_append (by decide)
        BitVec.extractLsb'_append_eq_left)
  have hjoin : offset.extractLsb' 11 1 ++ offset.extractLsb' 10 1 ++ offset.extractLsb' 4 6 ++
      offset.extractLsb' 0 4 = offset := by
    iterate 3 rw [BitVec.extractLsb'_append_extractLsb'_eq_extractLsb']
    · exact BitVec.extractLsb'_eq_self
    all_goals rfl
  rw [immediateB, h11, h10, h4, h0, hjoin]
  exact BitVec.toInt_append_zero

theorem immediateJ_encode (offset : BitVec 20) (op : BitVec 7) (d : BitVec 5) :
    immediateJ (offset.extractLsb' 19 1 ++ offset.extractLsb' 0 10 ++ offset.extractLsb' 10 1 ++
      offset.extractLsb' 11 8 ++ d ++ op) = 2 * offset.toInt := by
  generalize hw : offset.extractLsb' 19 1 ++ offset.extractLsb' 0 10 ++ offset.extractLsb' 10 1 ++
    offset.extractLsb' 11 8 ++ d ++ op = w
  have h11 : w.extractLsb' 12 8 = offset.extractLsb' 11 8 :=
    hw ▸ extractLsb'_append (by decide) (extractLsb'_append (by decide)
      BitVec.extractLsb'_append_eq_right)
  have h10 : w.extractLsb' 20 1 = offset.extractLsb' 10 1 :=
    hw ▸ extractLsb'_append (by decide) (extractLsb'_append (by decide) <|
      extractLsb'_append (by decide) BitVec.extractLsb'_append_eq_right)
  have h0 : w.extractLsb' 21 10 = offset.extractLsb' 0 10 :=
    hw ▸ extractLsb'_append (by decide) (extractLsb'_append (by decide) <|
      extractLsb'_append (by decide) <| extractLsb'_append (by decide)
        BitVec.extractLsb'_append_eq_right)
  have h19 : w.extractLsb' 31 1 = offset.extractLsb' 19 1 :=
    hw ▸ extractLsb'_append (by decide) (extractLsb'_append (by decide) <|
      extractLsb'_append (by decide) <| extractLsb'_append (by decide)
        BitVec.extractLsb'_append_eq_left)
  have hjoin : offset.extractLsb' 19 1 ++ offset.extractLsb' 11 8 ++ offset.extractLsb' 10 1 ++
      offset.extractLsb' 0 10 = offset := by
    iterate 3 rw [BitVec.extractLsb'_append_extractLsb'_eq_extractLsb']
    · exact BitVec.extractLsb'_eq_self
    all_goals rfl
  rw [immediateJ, h19, h11, h10, h0, hjoin]
  exact BitVec.toInt_append_zero

end Word

/-! ## Encoded instructions -/

/-- The format of a base instruction. -/
def Base.format : Base → Format
  | .register op => .register op.funct7 op.funct3
  | .immediate op => .immediate op.funct3
  | .shift op => .shift op.funct7 op.funct3
  | .load op => .load op.funct3
  | .store op => .store op.funct3
  | .branch op => .branch op.funct3
  | .upper op => .upper op.opcode
  | .jal => .jal
  | .jalr => .jalr
  | .fence => .fence
  | .system op => .system op.funct12

/-- **The two tables of names agree**: what the assembler takes a name for has the format of the
instruction of that name. -/
theorem mnemonic?_of_lookup {name : String} {b : Base}
    (h : Mnemonic.baseNames.lookup name = some b) : b.format.mnemonic? = some name := by
  have hall : ∀ entry ∈ Mnemonic.baseNames, entry.2.format.mnemonic? = some entry.1 := by decide
  exact hall (name, b) (Keyed.mem_of_lookup h)

namespace Instruction

/-- An instruction without its operands. -/
def base : Instruction → Base
  | .register op _ _ _ => .register op
  | .immediate op _ _ _ => .immediate op
  | .shift op _ _ _ => .shift op
  | .load op _ _ _ => .load op
  | .store op _ _ _ => .store op
  | .branch op _ _ _ => .branch op
  | .upper op _ _ => .upper op
  | .jal _ _ => .jal
  | .jalr _ _ _ => .jalr
  | .fence _ _ => .fence
  | .system op => .system op

/-- The operands of an instruction, as numbers. -/
def operands : Instruction → Operands
  | .register _ rd rs1 rs2 => .register rd.toNat rs1.toNat rs2.toNat
  | .immediate _ rd rs1 value => .immediate rd.toNat rs1.toNat value.toInt
  | .shift _ rd rs1 amount => .shift rd.toNat rs1.toNat amount.toNat
  | .load _ rd base offset => .immediate rd.toNat base.toNat offset.toInt
  | .store _ source base offset => .store base.toNat source.toNat offset.toInt
  | .branch _ rs1 rs2 offset => .branch rs1.toNat rs2.toNat (2 * offset.toInt)
  | .upper _ rd value => .upper rd.toNat value.toNat
  | .jal rd offset => .jump rd.toNat (2 * offset.toInt)
  | .jalr rd base offset => .immediate rd.toNat base.toNat offset.toInt
  | .fence before after => .fence (Word.accesses before) (Word.accesses after)
  | .system _ => .none

open Word

theorem format?_encode (i : Instruction) : format? i.encode = some i.base.format := by
  cases i with
  | register op rd rs1 rs2 =>
    rw [format?, show opcode (register op rd rs1 rs2).encode = 0b0110011 from opcode_append _ _]
    exact congrArg some (congrArg₂ Format.register (funct7_append _ _ _ _ _ _)
      (funct3_append _ _ _ _))
  | immediate op rd rs1 value =>
    have hfunct3 : funct3 (immediate op rd rs1 value).encode = op.funct3 := funct3_append _ _ _ _
    rw [format?, show opcode (immediate op rd rs1 value).encode = 0b0010011 from opcode_append _ _]
    simp only [hfunct3]
    cases op <;> rfl
  | shift op rd rs1 amount =>
    have hfunct3 : funct3 (shift op rd rs1 amount).encode = op.funct3 := funct3_append _ _ _ _
    have hfunct7 : funct7 (shift op rd rs1 amount).encode = op.funct7 := funct7_append _ _ _ _ _ _
    rw [format?, show opcode (shift op rd rs1 amount).encode = 0b0010011 from opcode_append _ _]
    simp only [hfunct3, hfunct7]
    cases op <;> rfl
  | load op rd base offset =>
    rw [format?, show opcode (load op rd base offset).encode = 0b0000011 from opcode_append _ _]
    exact congrArg (some ∘ Format.load) (funct3_append _ _ _ _)
  | store op source base offset =>
    rw [format?, show opcode (store op source base offset).encode = 0b0100011 from opcode_append _ _]
    exact congrArg (some ∘ Format.store) (funct3_append _ _ _ _)
  | branch op rs1 rs2 offset =>
    rw [format?, show opcode (branch op rs1 rs2 offset).encode = 0b1100011 from opcode_append _ _]
    exact congrArg (some ∘ Format.branch) (funct3_branch _ _ _ _ _)
  | upper op rd value =>
    rw [format?, show opcode (upper op rd value).encode = op.opcode from opcode_append _ _]
    cases op <;> rfl
  | jal rd offset =>
    rw [format?, show opcode (jal rd offset).encode = 0b1101111 from opcode_append _ _]
    rfl
  | jalr rd base offset =>
    rw [format?, show opcode (jalr rd base offset).encode = 0b1100111 from opcode_append _ _]
    exact if_pos (funct3_append _ _ _ _)
  | fence before after =>
    rw [format?, show opcode (fence before after).encode = 0b0001111 from opcode_append _ _]
    exact if_pos ⟨funct3_append _ _ _ _, margin_fence _ _ _ _ _ _ _⟩
  | system op =>
    rw [format?, show opcode (system op).encode = 0b1110011 from opcode_append _ _]
    simp only [show funct12 (system op).encode = op.funct12 from funct12_append _ _ _ _ _]
    exact if_pos ⟨funct3_append _ _ _ _, rd_append _ _ _, rs1_append _ _ _ _ _⟩

theorem operands_encode (i : Instruction) :
    Word.operands i.encode i.base.format = i.operands := by
  cases i with
  | register op rd rs1 rs2 =>
    rw [base, Base.format, Word.operands, operands,
      show Word.rd (register op rd rs1 rs2).encode = rd from rd_append _ _ _,
      show Word.rs1 (register op rd rs1 rs2).encode = rs1 from rs1_append _ _ _ _ _,
      show Word.rs2 (register op rd rs1 rs2).encode = rs2 from rs2_append _ _ _ _ _ _]
  | immediate op rd rs1 value =>
    rw [base, Base.format, Word.operands, operands,
      show Word.rd (immediate op rd rs1 value).encode = rd from rd_append _ _ _,
      show Word.rs1 (immediate op rd rs1 value).encode = rs1 from rs1_append _ _ _ _ _,
      show immediateI (immediate op rd rs1 value).encode = value.toInt from
        immediateI_append _ _ _ _ _]
  | shift op rd rs1 amount =>
    rw [base, Base.format, Word.operands, operands,
      show Word.rd (shift op rd rs1 amount).encode = rd from rd_append _ _ _,
      show Word.rs1 (shift op rd rs1 amount).encode = rs1 from rs1_append _ _ _ _ _,
      show Word.rs2 (shift op rd rs1 amount).encode = amount from rs2_append _ _ _ _ _ _]
  | load op rd base offset =>
    rw [Instruction.base, Base.format, Word.operands, operands,
      show Word.rd (load op rd base offset).encode = rd from rd_append _ _ _,
      show Word.rs1 (load op rd base offset).encode = base from rs1_append _ _ _ _ _,
      show immediateI (load op rd base offset).encode = offset.toInt from
        immediateI_append _ _ _ _ _]
  | store op source base offset =>
    rw [Instruction.base, Base.format, Word.operands, operands,
      show Word.rs1 (store op source base offset).encode = base from rs1_append _ _ _ _ _,
      show Word.rs2 (store op source base offset).encode = source from rs2_append _ _ _ _ _ _,
      show immediateS (store op source base offset).encode = offset.toInt from
        immediateS_encode _ _ _ _ _]
  | branch op rs1 rs2 offset =>
    rw [base, Base.format, Word.operands, operands,
      show Word.rs1 (branch op rs1 rs2 offset).encode = rs1 from rs1_branch _ _ _ _ _ _,
      show Word.rs2 (branch op rs1 rs2 offset).encode = rs2 from rs2_branch _ _ _ _ _ _ _,
      show immediateB (branch op rs1 rs2 offset).encode = 2 * offset.toInt from
        immediateB_encode _ _ _ _ _]
  | upper op rd value =>
    rw [base, Base.format, Word.operands, operands,
      show Word.rd (upper op rd value).encode = rd from rd_append _ _ _,
      show immediateU (upper op rd value).encode = value.toNat from immediateU_append _ _ _]
  | jal rd offset =>
    rw [base, Base.format, Word.operands, operands,
      show Word.rd (jal rd offset).encode = rd from rd_append _ _ _,
      show immediateJ (jal rd offset).encode = 2 * offset.toInt from immediateJ_encode _ _ _]
  | jalr rd base offset =>
    rw [Instruction.base, Base.format, Word.operands, operands,
      show Word.rd (jalr rd base offset).encode = rd from rd_append _ _ _,
      show Word.rs1 (jalr rd base offset).encode = base from rs1_append _ _ _ _ _,
      show immediateI (jalr rd base offset).encode = offset.toInt from immediateI_append _ _ _ _ _]
  | fence before after =>
    exact congrArg₂ (fun p s ↦ Operands.fence (accesses p) (accesses s))
      (before_fence _ _ _ _ _ _ _) (after_fence _ _ _ _ _ _ _)
  | system op => rfl

/-- **An encoded instruction is read back as itself**: under the name of its format, with the
numbers of its registers and the value of its immediate. -/
theorem decode_encode (i : Instruction) :
    decode i.encode = i.base.format.mnemonic?.map fun name ↦ ⟨name, i.operands⟩ := by
  rw [decode, format?_encode, Option.bind_some, operands_encode]

end Instruction
end Assembly
end FirmwareLane
