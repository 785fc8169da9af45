import FirmwareLane.Proofs.Assembly.Spelling

/-!
# Loading a constant

The one statement that may take two words loads a constant of 32 bits into a register.  The upper
word sets the upper twenty bits and the lower word adds the lower twelve, and since the lower twelve
are added with their sign, the upper twenty have to be those of the constant less that signed
number.  So what was put out is settled by executing it, and not by looking at its fields.

Execution is that of the instruction set: a word is read back by the layouts of the instruction set,
and the two instructions that matter here do to the registers what the instruction set says.

## What is here

* `Registers` and `Registers.run?`, which executes words that are read back as `lui` and `addi`.
* `Loads` is what is wanted of the words of such a statement, and `loads_loading` says that they
  have it, whatever the constant.
* `load_exact` is the statement about source texts: about each such statement of an accepted
  program, and about the programs that are one such statement and nothing else.
-/

set_option autoImplicit false
namespace FirmwareLane
namespace Assembly

open Outcome

/-! ## Executing words -/

/-- What the integer registers hold.  Register 0 always holds zero. -/
structure Registers where
  value : Register → Word
  zero : value Register.zero = 0

namespace Registers

/-- The registers after a word is written to one of them; nothing is ever written to register 0. -/
def write (s : Registers) (rd : Register) (w : Word) : Registers where
  value r := if r = rd ∧ rd ≠ Register.zero then w else s.value r
  zero := by
    rw [if_neg fun h ↦ h.2 h.1.symm]
    exact s.zero

theorem value_write_self (s : Registers) {rd : Register} (h : rd ≠ Register.zero) (w : Word) :
    (s.write rd w).value rd = w := if_pos ⟨rfl, h⟩

theorem value_write_of_ne (s : Registers) {rd r : Register} (h : r ≠ rd) (w : Word) :
    (s.write rd w).value r = s.value r := if_neg fun hboth ↦ h hboth.1

end Registers

/-- What an instruction that takes part in loading a constant does to the registers: `lui` writes
its immediate above twelve zero bits, and `addi` adds its signed immediate to a register. -/
def Decoded.execute? (decoded : Decoded) (s : Registers) : Option Registers :=
  match decoded.operands with
  | .upper rd value =>
    if decoded.mnemonic = "lui" then
      some (s.write (BitVec.ofNat 5 rd) (BitVec.ofNat 32 (value * 2 ^ 12)))
    else none
  | .immediate rd rs1 value =>
    if decoded.mnemonic = "addi" then
      some (s.write (BitVec.ofNat 5 rd) (s.value (BitVec.ofNat 5 rs1) + BitVec.ofInt 32 value))
    else none
  | _ => none

/-- The registers after a word is executed that is one of these instructions. -/
def Registers.step? (s : Registers) (w : Word) : Option Registers :=
  (Word.decode w).bind fun decoded ↦ decoded.execute? s

/-- The registers after words are executed one after another. -/
def Registers.run? (s : Registers) (words : List Word) : Option Registers :=
  words.foldlM Registers.step? s

theorem run?_cons (s : Registers) (w : Word) (rest : List Word) :
    s.run? (w :: rest) = (s.step? w).bind fun s' ↦ s'.run? rest := rfl

theorem step?_lui (s : Registers) (rd : Register) (value : BitVec 20) :
    s.step? (Instruction.upper .lui rd value).encode =
      some (s.write rd (BitVec.ofNat 32 (value.toNat * 2 ^ 12))) := by
  rw [Registers.step?, Instruction.decode_encode]
  show some (s.write (BitVec.ofNat 5 rd.toNat) _) = _
  rw [BitVec.ofNat_toNat, BitVec.setWidth_eq]

theorem step?_addi (s : Registers) (rd rs1 : Register) (value : BitVec 12) :
    s.step? (Instruction.immediate .addi rd rs1 value).encode =
      some (s.write rd (s.value rs1 + value.signExtend 32)) := by
  rw [Registers.step?, Instruction.decode_encode]
  show some (s.write (BitVec.ofNat 5 rd.toNat) (s.value (BitVec.ofNat 5 rs1.toNat) + _)) = _
  rw [BitVec.ofNat_toNat, BitVec.setWidth_eq, BitVec.ofNat_toNat, BitVec.setWidth_eq]
  rfl

/-! ## The two parts of a constant -/

section Parts

variable (c : Word)

/-- The lower twelve bits of a constant. -/
def low : BitVec 12 := c.extractLsb' 0 12

/-- The upper twenty bits of what remains of a constant without its signed lower bits. -/
def high : BitVec 20 := (c - (low c).signExtend 32).extractLsb' 12 20

/-- What is put out for a constant, by its two parts. -/
theorem loading_eq (rd : Register) :
    Instruction.loading rd c =
      if (low c).signExtend 32 = c then [.immediate .addi rd Register.zero (low c)]
      else .upper .lui rd (high c) :: if low c = 0 then [] else [.immediate .addi rd rd (low c)] :=
  rfl

theorem toNat_low : (low c).toNat = c.toNat % 2 ^ 12 := by
  rw [low, BitVec.extractLsb'_toNat, Nat.shiftRight_zero]

theorem toNat_signExtend_low :
    ((low c).signExtend 32).toNat =
      c.toNat % 2 ^ 12 + if c.toNat % 2 ^ 12 < 2 ^ 11 then 0 else 2 ^ 32 - 2 ^ 12 := by
  have hwidth : ((low c).setWidth 32).toNat = c.toNat % 2 ^ 12 := by
    rw [BitVec.toNat_setWidth, toNat_low, Nat.mod_eq_of_lt (by omega)]
  rw [BitVec.toNat_signExtend, hwidth, BitVec.msb_eq_decide, toNat_low]
  simp only [decide_eq_true_eq]
  split <;> split <;> omega

/-- **The upper bits, rounded, and the signed lower ones add up to the constant.** -/
theorem high_add_low :
    BitVec.ofNat 32 ((high c).toNat * 2 ^ 12) + (low c).signExtend 32 = c := by
  have hc := c.isLt
  have hlow := toNat_signExtend_low c
  apply BitVec.eq_of_toNat_eq
  rw [BitVec.toNat_add, BitVec.toNat_ofNat, high, BitVec.extractLsb'_toNat, BitVec.toNat_sub,
    Nat.shiftRight_eq_div_pow, hlow]
  split <;> omega

theorem signExtend_low_eq_iff :
    (low c).signExtend 32 = c ↔ -2 ^ 11 ≤ c.toInt ∧ c.toInt < 2 ^ 11 := by
  have hc := c.isLt
  rw [← BitVec.toNat_inj, toNat_signExtend_low, BitVec.toInt_eq_toNat_cond]
  split <;> split <;> omega

theorem low_eq_zero_iff : low c = 0 ↔ c.toInt % 2 ^ 12 = 0 := by
  rw [← BitVec.toNat_inj, toNat_low, BitVec.toInt_eq_toNat_cond]
  have hzero : (0 : BitVec 12).toNat = 0 := rfl
  rw [hzero]
  split <;> omega

end Parts

/-! ## Words that load a constant -/

/-- Words that load a value into a register, and are as few as they can be.  The value may be given
as a signed or as an unsigned number. -/
structure Loads (words : List Word) (rd : Register) (v : Int) : Prop where
  range : -2 ^ 31 ≤ v ∧ v < 2 ^ 32
  run? : rd ≠ Register.zero → ∀ s : Registers, ∃ s', s.run? words = some s' ∧
    ((s'.value rd).toNat : Int) = v % 2 ^ 32 ∧ ∀ r, r ≠ rd → s'.value r = s.value r
  /-- The signed number of 32 bits that the value stands for decides how many words there are. -/
  length : words.length =
    let signed := v.bmod (2 ^ 32)
    if (-2 ^ 11 ≤ signed ∧ signed < 2 ^ 11) ∨ signed % 2 ^ 12 = 0 then 1 else 2

/-- What is put out for a constant leaves it in the register, and the other registers alone. -/
theorem run?_loading {rd : Register} (h : rd ≠ Register.zero) (c : Word) (s : Registers) :
    ∃ s', s.run? ((Instruction.loading rd c).map Instruction.encode) = some s' ∧
      s'.value rd = c ∧ ∀ r, r ≠ rd → s'.value r = s.value r := by
  have hparts := high_add_low c
  rw [loading_eq]
  split
  · next hshort =>
    have hrun := step?_addi s rd Register.zero (low c)
    refine ⟨_, by rw [List.map_singleton, run?_cons, hrun]; rfl, ?_, fun r hr ↦ ?_⟩
    · rw [s.value_write_self h, s.zero, hshort, BitVec.ofNat_eq_ofNat, BitVec.zero_add]
    · rw [s.value_write_of_ne hr]
  · have hupper := step?_lui s rd (high c)
    generalize hs : s.write rd (BitVec.ofNat 32 ((high c).toNat * 2 ^ 12)) = s' at hupper
    have hvalue : s'.value rd = BitVec.ofNat 32 ((high c).toNat * 2 ^ 12) :=
      hs ▸ s.value_write_self h _
    have hothers : ∀ r, r ≠ rd → s'.value r = s.value r := fun r hr ↦ hs ▸ s.value_write_of_ne hr _
    split
    · next hzero =>
      refine ⟨s', by rw [List.map_singleton, run?_cons, hupper]; rfl, ?_, hothers⟩
      rw [hvalue]
      rwa [hzero, show (0 : BitVec 12).signExtend 32 = 0#32 from rfl, BitVec.add_zero] at hparts
    · have hlower := step?_addi s' rd rd (low c)
      refine ⟨_, by rw [List.map_cons, List.map_singleton, run?_cons, hupper, Option.bind_some,
        run?_cons, hlower]; rfl, ?_, fun r hr ↦ ?_⟩
      · rw [s'.value_write_self h, hvalue, hparts]
      · rw [s'.value_write_of_ne hr, hothers r hr]

/-- **What is put out for a constant loads it**, however the constant was given. -/
theorem loads_loading (rd : Register) {v : Int} (h : -2 ^ 31 ≤ v ∧ v < 2 ^ 32) :
    Loads ((Instruction.loading rd (BitVec.ofInt 32 v)).map Instruction.encode) rd v where
  range := h
  run? hrd s := by
    obtain ⟨s', hrun, hvalue, hothers⟩ := run?_loading hrd (BitVec.ofInt 32 v) s
    refine ⟨s', hrun, ?_, hothers⟩
    rw [hvalue, BitVec.toNat_ofInt]
    omega
  length := by
    have hsigned : (BitVec.ofInt 32 v).toInt = v.bmod (2 ^ 32) := BitVec.toInt_ofInt v
    have hshort := signExtend_low_eq_iff (BitVec.ofInt 32 v)
    have hzero := low_eq_zero_iff (BitVec.ofInt 32 v)
    rw [hsigned] at hshort hzero
    rw [List.length_map, loading_eq]
    dsimp only
    by_cases hfits : -2 ^ 11 ≤ v.bmod (2 ^ 32) ∧ v.bmod (2 ^ 32) < 2 ^ 11
    · rw [if_pos (hshort.2 hfits), if_pos (.inl hfits)]
      rfl
    · rw [if_neg (mt hshort.1 hfits), List.length_cons]
      by_cases hround : v.bmod (2 ^ 32) % 2 ^ 12 = 0
      · rw [if_pos (hzero.2 hround), if_pos (.inr hround)]
        rfl
      · rw [if_neg (mt hzero.1 hround), if_neg (not_or.2 ⟨hfits, hround⟩)]
        rfl

/-! ## Statements that load a constant -/

theorem constant_eq {operand : String} {v : Int} (h : StandsFor operand v) :
    Operand.constant operand =
      if -2 ^ 31 ≤ v ∧ v < 2 ^ 32 then .ok (BitVec.ofInt 32 v) else .error (.tooWide v) := by
  rw [Operand.constant, Operand.integer, h]
  rfl

theorem ofName?_loadName : Mnemonic.ofName? Mnemonic.loadName = some .loadImmediate := by decide

theorem register_eq_ok {operand : String} {r : Register} :
    Operand.register operand = .ok r ↔ Register.read? operand.toList = some r := by
  rw [Operand.register]
  split
  · next s hs => rw [hs, Except.ok.injEq, Option.some.injEq]
  · next hnone => simp [hnone]

theorem loadInstructions_eq {d n : String} {rd : Register} {v : Int}
    (hd : Register.read? d.toList = some rd) (hn : StandsFor n v) :
    Statement.loadInstructions [d, n] =
      if -2 ^ 31 ≤ v ∧ v < 2 ^ 32 then .ok (Instruction.loading rd (BitVec.ofInt 32 v))
      else .error (.tooWide v) := by
  rw [Statement.loadInstructions, Statement.loadOperands, register_eq_ok.2 hd, constant_eq hn]
  split <;> rfl

theorem loadInstructions_of_not_literal {d n : String} {rd : Register}
    (hd : Register.read? d.toList = some rd) (hn : Literal.read? n.toList = none) :
    Statement.loadInstructions [d, n] = .error (.invalidImmediate (Text.trimmed n)) := by
  rw [Statement.loadInstructions, Statement.loadOperands, register_eq_ok.2 hd, Operand.constant,
    Operand.integer, hn]
  rfl

/-- The operands of a statement that loads a constant, and what its instructions do. -/
theorem loads_of_loadInstructions {operands : List String} {resolved : List Instruction}
    (h : Statement.loadInstructions operands = .ok resolved) :
    ∃ d n rd v, operands = [d, n] ∧ Register.read? d.toList = some rd ∧ StandsFor n v ∧
      Loads (resolved.map Instruction.encode) rd v := by
  obtain ⟨⟨rd, c⟩, hoperands, h⟩ := bind_eq_ok.1 h
  rw [← pure_eq_ok.1 h]
  unfold Statement.loadOperands at hoperands
  split at hoperands
  · next d n =>
    obtain ⟨r, hr, hoperands⟩ := bind_eq_ok.1 hoperands
    obtain ⟨c', hc, hoperands⟩ := bind_eq_ok.1 hoperands
    obtain ⟨rfl, rfl⟩ := Prod.mk.inj (pure_eq_ok.1 hoperands)
    obtain ⟨v, hv, -⟩ := bind_eq_ok.1 hc
    have hstands := standsFor_of_integer hv
    rw [constant_eq hstands] at hc
    split at hc
    · next hrange =>
      rw [← Except.ok.inj hc]
      exact ⟨d, n, r, v, rfl, register_eq_ok.1 hr, hstands, loads_loading r hrange⟩
    · cases hc
  · cases hoperands

/-! ## Whole source texts -/

/-- The words of a statement that loads a constant. -/
theorem loads_of_wordsOf {layout : Layout} {p : Placed} {chunk : List Word}
    (h : layout.wordsOf p = .ok chunk) (hname : p.statement.name = Mnemonic.loadName) :
    ∃ d n rd v, p.statement.operands = [d, n] ∧ Register.read? d.toList = some rd ∧
      StandsFor n v ∧ Loads chunk rd v := by
  obtain ⟨resolved, hresolved, hchunk⟩ := bind_eq_ok.1 (onLine_eq_ok.1 h)
  rw [Statement.instructions, hname, ofName?_loadName] at hresolved
  rw [← pure_eq_ok.1 hchunk]
  exact loads_of_loadInstructions hresolved

theorem words_singleton (p : Placed) (labels : Labels) :
    Layout.words ⟨[p], labels⟩ = Layout.wordsOf ⟨[p], labels⟩ p := by
  rw [Layout.words, List.mapM_cons]
  cases Layout.wordsOf ⟨[p], labels⟩ p with
  | error failure => rfl
  | ok chunk => exact congrArg Except.ok (List.append_nil chunk)

/-- **A program that is one statement.** -/
theorem assemble_line {text : List Char} {written : Written} (hnewline : '\n' ∉ text)
    (hread : Line.read text = .ok ⟨[], some written⟩) :
    assemble (String.ofList text) =
      onLine 1 ((written.statement 1).size >>= fun _ ↦
        ((written.statement 1).instructions [] 0).map (·.map Instruction.encode)) := by
  have hne : text ≠ [] := by
    rintro rfl
    cases read_nil.symm.trans hread
  have hlayout : Layout.ofSource (String.ofList text) =
      (onLine 1 (written.statement 1).size).map fun _ ↦ ⟨[⟨0, written.statement 1⟩], []⟩ := by
    rw [Layout.ofSource, String.toList_ofList, Text.lines_of_not_mem hne hnewline, Layout.ofLines,
      hread]
    show (onLine 1 (written.statement 1).size >>= _) = _
    cases (written.statement 1).size <;> rfl
  rw [assemble, hlayout]
  cases (written.statement 1).size with
  | error fault => rfl
  | ok size =>
    show Layout.words ⟨[⟨0, written.statement 1⟩], []⟩ = onLine 1 (Except.map _ _)
    rw [words_singleton, Layout.wordsOf]
    cases (written.statement 1).instructions [] 0 <;> rfl

/-- A program that is one statement that loads a constant. -/
theorem assemble_loading {text : List Char} {operands : List String} (hnewline : '\n' ∉ text)
    (hread : Line.read text = .ok ⟨[], some ⟨Mnemonic.loadName, operands⟩⟩) :
    assemble (String.ofList text) =
      onLine 1 ((Statement.loadInstructions operands).map fun resolved ↦
        resolved.map Instruction.encode) := by
  rw [assemble_line hnewline hread, Statement.instructions, Statement.size]
  simp only [Written.statement, ofName?_loadName, if_true]
  cases Statement.loadInstructions operands <;> rfl

theorem assemble_loading_of_standsFor {text : List Char} {d n : String} {rd : Register} {v : Int}
    (hnewline : '\n' ∉ text)
    (hread : Line.read text = .ok ⟨[], some ⟨Mnemonic.loadName, [d, n]⟩⟩)
    (hd : Register.read? d.toList = some rd) (hn : StandsFor n v) :
    if -2 ^ 31 ≤ v ∧ v < 2 ^ 32 then
      ∃ words, assemble (String.ofList text) = .ok words ∧ Loads words rd v
    else assemble (String.ofList text) = .error ⟨1, .tooWide v⟩ := by
  rw [assemble_loading hnewline hread, loadInstructions_eq hd hn]
  split
  · next hrange => exact ⟨_, rfl, loads_loading rd hrange⟩
  · rfl

/-- The line that loads a value into a register. -/
def loadingLine (rd : Register) (v : Int) : String :=
  "li " ++ rd.spell ++ ", " ++ Text.Numeral.integer v

theorem read_loadingLine (rd : Register) (v : Int) :
    '\n' ∉ (loadingLine rd v).toList ∧ Line.read (loadingLine rd v).toList =
      .ok ⟨[], some ⟨Mnemonic.loadName, [rd.spell, Text.Numeral.integer v]⟩⟩ := by
  have hspellable : Written.IsSpellable
      ⟨Mnemonic.loadName, [rd.spell, Text.Numeral.integer v]⟩ := {
    name := (by decide : IsName Mnemonic.loadName.toList)
    operands := by
      simpa using ⟨isOperand_spell_register rd, isOperand_integer v⟩
    colon := by
      rintro o ho
      rw [← Option.some.inj ho, Register.spell, String.toList_append]
      exact (by decide : some 'x' ≠ some ':') }
  have hline : (loadingLine rd v).toList =
      Line.spell ⟨Mnemonic.loadName, [rd.spell, Text.Numeral.integer v]⟩ [] := by
    simp [loadingLine, Line.spell, Written.spell, joined, Mnemonic.loadName]
  rw [hline]
  exact ⟨(legible_spell hspellable (List.forall_mem_nil _)).newline,
    read_spell hspellable (List.forall_mem_nil _)⟩

/-- **Loading a constant is exact.**  The words that an accepted program has for such a statement
leave the register that the first operand names with the number that the second one stands for,
counted modulo the size of a word, and every other register as it was; there is one word if the
number, taken as a signed one of 32 bits, fits a signed field of twelve bits or has no lower twelve
bits, and there are two otherwise.  The number lies in the range of signed or of unsigned words, so
no program with a statement for any other number is accepted.  A program that is one such statement,
however it is spelled, is accepted exactly for the numbers in that range, and every register and
number has such a program. -/
theorem load_exact :
    (∀ source words, assemble source = .ok words →
      ∃ layout pairs, Layout.ofSource source = .ok layout ∧
        layout.placed.map (·.statement) = statementsOf source ∧
        Emitted layout pairs ∧ words = pairs.flatMap (·.2) ∧
        ∀ pair ∈ pairs, pair.1.statement.name = Mnemonic.loadName →
          ∃ d n rd v, pair.1.statement.operands = [d, n] ∧ Register.read? d.toList = some rd ∧
            StandsFor n v ∧ Loads pair.2 rd v) ∧
    (∀ text d n rd v, '\n' ∉ text →
      Line.read text = .ok ⟨[], some ⟨Mnemonic.loadName, [d, n]⟩⟩ →
      Register.read? d.toList = some rd → StandsFor n v →
        if -2 ^ 31 ≤ v ∧ v < 2 ^ 32 then
          ∃ words, assemble (String.ofList text) = .ok words ∧ Loads words rd v
        else assemble (String.ofList text) = .error ⟨1, .tooWide v⟩) ∧
    ∀ rd v,
      if -2 ^ 31 ≤ v ∧ v < 2 ^ 32 then
        ∃ words, assemble (loadingLine rd v) = .ok words ∧ Loads words rd v
      else ∃ fault, assemble (loadingLine rd v) = .error ⟨1, fault⟩ := by
  refine ⟨fun source words h ↦ ?_, fun _ _ _ _ _ ↦ assemble_loading_of_standsFor, fun rd v ↦ ?_⟩
  · obtain ⟨layout, pairs, h⟩ := exists_accepted h
    exact ⟨layout, pairs, h.ofSource, h.laid.map_statement, h.emitted, h.words_eq,
      fun pair hpair ↦ loads_of_wordsOf (h.emitted.wordsOf pair hpair)⟩
  · obtain ⟨hnewline, hread⟩ := read_loadingLine rd v
    have hbound : Literal.bound = 2 ^ 63 := rfl
    have hliteral := read?_integer v
    by_cases hsmall : v.natAbs < Literal.bound
    · rw [if_pos hsmall] at hliteral
      have hall := assemble_loading_of_standsFor hnewline hread (read?_spell_register rd) hliteral
      rw [String.ofList_toList] at hall
      split
      · next hrange => rwa [if_pos hrange] at hall
      · next hrange => rw [if_neg hrange] at hall; exact ⟨_, hall⟩
    · rw [if_neg hsmall] at hliteral
      have hall := assemble_loading hnewline hread
      rw [String.ofList_toList,
        loadInstructions_of_not_literal (read?_spell_register rd) hliteral] at hall
      rw [if_neg (by omega)]
      exact ⟨_, hall⟩

/-- The lower bits of the greatest signed number count as minus one, so the upper ones are rounded
up to those of the least signed number. -/
theorem load_exact_of_greatest :
    assemble "li t0, 0x7fff_ffff" = .ok [0x800002b7, 0xfff28293] ∧
      Loads [0x800002b7, 0xfff28293] 5 0x7fffffff ∧
      assemble "li t0, 0x100000000" = .error ⟨1, .tooWide 0x100000000⟩ ∧
      ∃ words, assemble (loadingLine 5 (-2048)) = .ok words ∧ words.length = 1 := by
  have hwords : assemble "li t0, 0x7fff_ffff" = .ok [0x800002b7, 0xfff28293] := by decide +kernel
  obtain ⟨hspelled, hlines⟩ := load_exact.2
  obtain ⟨words, hsame, hloads⟩ := hspelled "li t0, 0x7fff_ffff".toList "t0" "0x7fff_ffff" 5
    0x7fffffff (by decide) (by decide +kernel) (by decide +kernel)
    (show Literal.read? _ = _ by decide +kernel)
  rw [String.ofList_toList] at hsame
  have hwide := hspelled "li t0, 0x100000000".toList "t0" "0x100000000" 5 0x100000000
    (by decide) (by decide +kernel) (by decide +kernel) (show Literal.read? _ = _ by decide +kernel)
  obtain ⟨short, hshort, hone⟩ := hlines 5 (-2048)
  exact ⟨hwords, Except.ok.inj (hsame.symm.trans hwords) ▸ hloads, hwide, short, hshort, hone.length⟩

end Assembly
end FirmwareLane
