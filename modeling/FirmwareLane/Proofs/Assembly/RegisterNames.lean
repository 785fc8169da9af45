import FirmwareLane.Proofs.Assembly.Loading

/-!
# The names of registers

A register is named by its number behind an `x`, or by a name of the calling convention, in letters
of either case and with blanks around it.  The number is written as numbers are: without a sign, and
without a zero in front.

The reader of register names takes more than that.  The numeral behind the `x` goes to a reader that
takes a plus sign as well, and a zero in front is looked for at the very front only.  So `x+5` and
`x+05` name register 5, while `x05` names none.

## What is here

* `Register.IsSpelling` are the names that the language has, `Register.IsSignedSpelling` those that
  are taken as well, and `Register.ofSpelling?_eq_some` says that there are no others.
* `Statement.registerTexts` are the texts of a statement that stand for registers, and
  `nameRegisters_of_instructions` says that a statement is resolved only if each of them names one.
* `register_names_iff` is about operands and about whole source texts.
-/

set_option autoImplicit false
namespace FirmwareLane

open Text.Numeral (write)

/-! ## Numerals that begin with a zero or a sign -/

namespace Text.Numeral

theorem head?_write (n : Nat) : ∃ d < 10, (write 10 n).head? = some (digitChar d) ∧
    (d = 0 → write 10 n = ['0']) := by
  obtain ⟨d, rest, hdigits⟩ := List.exists_cons_of_ne_nil (decimalDigits_ne_nil n)
  refine ⟨d, lt_of_mem_decimalDigits (hdigits ▸ List.mem_cons_self), ?_, ?_⟩
  · rw [write_eq_map, hdigits]
    rfl
  · rintro rfl
    rw [write_eq_map, decimalDigits_of_head_eq_zero (by rw [hdigits]; rfl)]
    rfl

/-- A numeral has no zero in front of another digit. -/
theorem write_eq_of_head?_eq_zero {n : Nat} (h : (write 10 n).head? = some '0') :
    write 10 n = ['0'] := by
  obtain ⟨d, hd, hhead, hzero⟩ := head?_write n
  have hdigit : ∀ d < 10, digitChar d = '0' → d = 0 := by decide
  exact hzero (hdigit d hd (Option.some.inj (hhead.symm.trans h)))

theorem head?_write_ne_plus (n : Nat) : (write 10 n).head? ≠ some '+' := by
  obtain ⟨d, hd, hhead, -⟩ := head?_write n
  have hdigit : ∀ d < 10, digitChar d ≠ '+' := by decide
  exact fun h ↦ hdigit d hd (Option.some.inj (hhead.symm.trans h))

end Text.Numeral

namespace Assembly

open Outcome

namespace Register

/-! ## Spellings -/

/-- The names of registers in a row: a letter and numbers in a row. -/
def family (letter : Char) (first count number : Nat) : List (List Char × Nat) :=
  (List.range count).map fun k ↦ (letter :: write 10 (first + k), number + k)

/-- The names of the calling convention: the zero register and the pointers, the temporaries, the
saved registers and the arguments. -/
def conventional : List (List Char × Nat) :=
  [("zero".toList, 0), ("ra".toList, 1), ("sp".toList, 2), ("gp".toList, 3), ("tp".toList, 4),
    ("fp".toList, 8)] ++ family 't' 0 3 5 ++ family 't' 3 4 28 ++ family 's' 0 2 8 ++
    family 's' 2 10 18 ++ family 'a' 0 8 10

/-- A name for the register of a number. -/
inductive IsSpelling : List Char → Nat → Prop
  | number {n : Nat} (h : n < 32) : IsSpelling ('x' :: write 10 n) n
  | conventional {name : List Char} {n : Nat} (h : (name, n) ∈ conventional) : IsSpelling name n

/-- The number of a register behind a plus sign and any number of zeros. -/
def IsSignedSpelling (name : List Char) (n : Nat) : Prop :=
  n < 32 ∧ ∃ zeros, name = 'x' :: '+' :: (List.replicate zeros '0' ++ write 10 n)

/-- The text that is looked at to find out which register an operand names. -/
def nameIn (operand : String) : List Char := (Text.trim operand.toList).map Char.toLower

/-- An operand that names no register in any of these ways. -/
def IsNoName (operand : String) : Prop :=
  ∀ n, ¬ IsSpelling (nameIn operand) n ∧ ¬ IsSignedSpelling (nameIn operand) n

/-! ## Reading a name -/

/-- A number that is read and then taken only if it is one of a register. -/
theorem taken_eq_some {P : Prop} [Decidable P] {numeral : Option Nat} {n : Nat} :
    (match numeral with
      | none => none
      | some m => if m < 32 ∧ P then some m else none) = some n ↔
      n < 32 ∧ numeral = some n ∧ P := by
  cases numeral with
  | none => simp
  | some m =>
    simp only [Option.ite_none_right_eq_some, Option.some.injEq]
    constructor
    · rintro ⟨⟨hm, hP⟩, rfl⟩
      exact ⟨hm, rfl, hP⟩
    · rintro ⟨hn, rfl, hP⟩
      exact ⟨⟨hn, hP⟩, rfl⟩

/-- **The numerals that stand behind an `x`.** -/
theorem number?_eq_some {digits : List Char} {n : Nat} :
    number? digits = some n ↔ n < 32 ∧
      (digits = write 10 n ∨ ∃ zeros, digits = '+' :: (List.replicate zeros '0' ++ write 10 n)) := by
  unfold number?
  split
  · next rest =>
    refine taken_eq_some.trans (and_congr_right fun _ ↦ ?_)
    have hplus : '+' :: rest ≠ write 10 n := fun h ↦ Text.Numeral.head?_write_ne_plus n (h ▸ rfl)
    rw [Text.Numeral.read?_ten_eq_some, or_iff_right hplus]
    simp
  · next hplus =>
    refine taken_eq_some.trans (and_congr_right fun _ ↦ ?_)
    have hsigned : ¬ ∃ zeros, digits = '+' :: (List.replicate zeros '0' ++ write 10 n) := by
      rintro ⟨zeros, h⟩
      exact hplus _ h
    rw [or_iff_left hsigned]
    constructor
    · rintro ⟨hn, rfl | hhead⟩
      · rw [← Option.some.inj hn]
        rfl
      · exact Text.Numeral.eq_write_of_read? hn hhead
    · rintro rfl
      refine ⟨Text.Numeral.read?_write n, ?_⟩
      by_cases hhead : (write 10 n).head? = some '0'
      · exact .inl (Text.Numeral.write_eq_of_head?_eq_zero hhead)
      · exact .inr hhead

/-- The table of names has those of the calling convention. -/
theorem find?_names {name : List Char} {r : Register} :
    (names.find? fun entry ↦ entry.1 == String.ofList name).map (·.2) = some r ↔
      (name, r.toNat) ∈ conventional := by
  have hsame : ∀ entry : List Char × Nat, entry ∈ conventional ↔
      ∃ e ∈ names, (e.1.toList, e.2.toNat) = entry := by
    have hperm : (names.map fun e ↦ (e.1.toList, e.2.toNat)).Perm conventional := by decide +kernel
    exact fun entry ↦ hperm.mem_iff.symm.trans List.mem_map
  have hdistinct : ∀ e ∈ names, (names.find? fun entry ↦ entry.1 == e.1) = some e := by
    decide +kernel
  rw [Option.map_eq_some_iff, hsame]
  constructor
  · rintro ⟨e, he, rfl⟩
    refine ⟨e, List.mem_of_find?_eq_some he, ?_⟩
    have hname := List.find?_some he
    rw [beq_iff_eq] at hname
    rw [hname, String.toList_ofList]
  · rintro ⟨e, he, heq⟩
    obtain ⟨hname, hnumber⟩ := Prod.mk.inj heq
    refine ⟨e, ?_, BitVec.eq_of_toNat_eq hnumber⟩
    rw [← hname, String.ofList_toList]
    exact hdistinct e he

theorem head?_conventional : ∀ entry ∈ conventional, entry.1.head? ≠ some 'x' := by decide +kernel

theorem ofSpelling?_numbered (digits : List Char) :
    ofSpelling? ('x' :: digits) = (number? digits).map (BitVec.ofNat 5) := by
  rw [ofSpelling?]
  cases number? digits with
  | some n => rfl
  | none =>
    simp only [Option.map_none]
    rw [Option.eq_none_iff_forall_ne_some]
    exact fun r hr ↦ head?_conventional _ (find?_names.1 hr) rfl

theorem ofSpelling?_of_head {name : List Char} (h : name.head? ≠ some 'x') :
    ofSpelling? name = (names.find? fun entry ↦ entry.1 == String.ofList name).map (·.2) := by
  unfold ofSpelling?
  split
  · exact absurd rfl h
  · rfl

/-- **The names that are taken**: those that the language has, and numbers behind a sign. -/
theorem ofSpelling?_eq_some {name : List Char} {r : Register} :
    ofSpelling? name = some r ↔ IsSpelling name r.toNat ∨ IsSignedSpelling name r.toNat := by
  by_cases hx : name.head? = some 'x'
  · obtain ⟨digits, rfl⟩ := List.head?_eq_some_iff.1 hx
    have hnumber : number? digits = some r.toNat ↔ ofSpelling? ('x' :: digits) = some r := by
      rw [ofSpelling?_numbered, Option.map_eq_some_iff]
      constructor
      · exact fun h ↦ ⟨_, h, BitVec.ofNat_toNat 5 r⟩
      · rintro ⟨n, hn, rfl⟩
        rwa [BitVec.toNat_ofNat, Nat.mod_eq_of_lt (number?_eq_some.1 hn).1]
    rw [← hnumber, number?_eq_some]
    constructor
    · rintro ⟨hn, rfl | ⟨zeros, rfl⟩⟩
      · exact .inl (.number hn)
      · exact .inr ⟨hn, zeros, rfl⟩
    · rintro (h | ⟨hn, zeros, h⟩)
      · generalize hname : 'x' :: digits = name at h
        cases h with
        | number hn => exact ⟨hn, .inl (List.cons.inj hname).2⟩
        | conventional h => exact absurd (hname ▸ rfl) (head?_conventional _ h)
      · exact ⟨hn, .inr ⟨zeros, (List.cons.inj h).2⟩⟩
  · rw [ofSpelling?_of_head hx, find?_names]
    constructor
    · exact fun h ↦ .inl (.conventional h)
    · rintro (h | ⟨-, _, h⟩)
      · cases h with
        | number => exact absurd rfl hx
        | conventional h => exact h
      · exact absurd (h ▸ rfl) hx

/-- The register that an operand names. -/
theorem read?_eq_some {operand : String} {r : Register} :
    read? operand.toList = some r ↔
      IsSpelling (nameIn operand) r.toNat ∨ IsSignedSpelling (nameIn operand) r.toNat :=
  ofSpelling?_eq_some

theorem IsNoName.read?_eq_none {operand : String} (h : IsNoName operand) :
    read? operand.toList = none := by
  rw [Option.eq_none_iff_forall_ne_some]
  exact fun r hr ↦ (read?_eq_some.1 hr).elim (h _).1 (h _).2

end Register

/-! ## The registers in a statement -/

/-- The text of the register in an operand with an offset, and any other operand itself. -/
def baseText (operand : String) : String :=
  match Text.cutAt? '(' (Text.trim operand.toList) with
  | none => operand
  | some (_, after) => ((Text.dropLast? ')' after).map String.ofList).getD operand

/-- The texts that stand for registers in the operands of a base instruction. -/
def Format.registerTexts : Format → List String → List String
  | .load _, [d, m] | .store _, [d, m] | .jalr, [d, m] => [d, baseText m]
  | .register _ _, operands => operands
  | .immediate _, operands | .shift _ _, operands | .branch _, operands | .jalr, operands =>
    operands.take 2
  | .upper _, operands => operands.take 1
  | .jal, operands => operands.dropLast
  | _, _ => []

/-- The texts that stand for registers in the operands of a pseudo-instruction. -/
def Pseudo.registerTexts : Pseudo → List String → List String
  | .nop, _ | .j, _ | .ret, _ => []
  | .mv, operands | .not, operands | .neg, operands | .seqz, operands | .snez, operands
  | .sltz, operands | .sgtz, operands | .jr, operands => operands
  | .beqz, operands | .bnez, operands | .blez, operands | .bgez, operands | .bltz, operands
  | .bgtz, operands => operands.take 1
  | .bgt, operands | .ble, operands | .bgtu, operands | .bleu, operands => operands.take 2

/-- The texts that stand for registers in the operands of an instruction. -/
def Mnemonic.registerTexts : Mnemonic → List String → List String
  | .base b, operands => b.format.registerTexts operands
  | .pseudo p, operands => p.registerTexts operands
  | .loadImmediate, operands => operands.take 1

/-- The texts that stand for registers in a statement. -/
def Statement.registerTexts (statement : Statement) : List String :=
  match Mnemonic.ofName? statement.name with
  | some m => m.registerTexts statement.operands
  | none => []

theorem baseText_of_namesRegister {operand : String} {n : Nat} (h : NamesRegister operand n) :
    baseText operand = operand := by
  have hnone : Text.cutAt? '(' (Text.trim operand.toList) = none := by
    rw [Option.eq_none_iff_forall_ne_some]
    rintro ⟨before, after⟩ hcut
    refine not_mem_of_namesRegister h ?_
    rw [(Text.cutAt?_eq_some.1 hcut).1]
    exact List.mem_append_right _ List.mem_cons_self
  rw [baseText, hnone]

theorem IsMemory.namesRegister {operand : String} {offset : Int} {base : Nat}
    (h : IsMemory operand offset base) : NamesRegister (baseText operand) base := by
  obtain ⟨before, inner, htext, hbefore, -, hbase⟩ := h
  rw [baseText, Text.cutAt?_eq_some.2 ⟨htext, hbefore⟩]
  simp only [Text.dropLast?_eq_some.2 rfl]
  exact hbase

/-- Each of some texts names a register. -/
def NameRegisters (texts : List String) : Prop := ∀ text ∈ texts, ∃ n, NamesRegister text n

theorem nameRegisters_nil : NameRegisters [] := fun _ h ↦ absurd h List.not_mem_nil

theorem NameRegisters.cons {text : String} {texts : List String} {n : Nat}
    (h : NamesRegister text n) (hrest : NameRegisters texts) : NameRegisters (text :: texts) :=
  List.forall_mem_cons.2 ⟨⟨n, h⟩, hrest⟩

theorem nameRegisters_singleton {text : String} {n : Nat} (h : NamesRegister text n) :
    NameRegisters [text] :=
  .cons h nameRegisters_nil

theorem nameRegisters_pair {text text' : String} {n n' : Nat} (h : NamesRegister text n)
    (h' : NamesRegister text' n') : NameRegisters [text, text'] :=
  .cons h (nameRegisters_singleton h')

/-- **What stands for a register in the operands of a base instruction names one.** -/
theorem Denotes.nameRegisters {labels : Labels} {address : Word} {format : Format}
    {operands : List String} {denoted : Operands}
    (h : Denotes labels address format operands denoted) :
    NameRegisters (format.registerTexts operands) := by
  cases h with
  | register hd ha hb => exact .cons hd (nameRegisters_pair ha hb)
  | immediate hd ha | shift hd ha | branch hd ha | jalr hd ha => exact nameRegisters_pair hd ha
  | load hd hm | store hd hm | jalrMemory hd hm => exact nameRegisters_pair hd hm.namesRegister
  | jalrRegister hd ha =>
    exact nameRegisters_pair hd ((baseText_of_namesRegister ha).symm ▸ ha)
  | upper hd | jal hd | callRegister hd => exact nameRegisters_singleton hd
  | call | fence | fenceAll | system => exact nameRegisters_nil

section Instructions

variable {labels : Labels} {address : Word} {operands : List String} {i : Instruction}

theorem nameRegisters_of_ofRegisters {make : Register → Register → Instruction}
    (h : Statement.ofRegisters operands make = .ok i) : NameRegisters operands := by
  unfold Statement.ofRegisters at h
  split at h
  · obtain ⟨source, hs, h⟩ := bind_eq_ok.1 h
    obtain ⟨rd, hd, -⟩ := bind_eq_ok.1 h
    exact nameRegisters_pair (namesRegister_of_register hd) (namesRegister_of_register hs)
  · cases h

theorem nameRegisters_of_ofZeroTest {make : Register → BitVec 12 → Instruction}
    (h : Statement.ofZeroTest labels address operands make = .ok i) :
    NameRegisters (operands.take 1) := by
  unfold Statement.ofZeroTest at h
  split at h
  · obtain ⟨tested, hr, -⟩ := bind_eq_ok.1 h
    exact nameRegisters_singleton (namesRegister_of_register hr)
  · cases h

theorem nameRegisters_of_ofSwapped {op : BranchOp}
    (h : Statement.ofSwapped labels address operands op = .ok i) :
    NameRegisters (operands.take 2) := by
  unfold Statement.ofSwapped at h
  split at h
  · obtain ⟨offset, -, h⟩ := bind_eq_ok.1 h
    obtain ⟨rs2, ha, h⟩ := bind_eq_ok.1 h
    obtain ⟨rs1, hb, -⟩ := bind_eq_ok.1 h
    exact nameRegisters_pair (namesRegister_of_register ha) (namesRegister_of_register hb)
  · cases h

theorem nameRegisters_of_pseudoInstruction {p : Pseudo}
    (h : Statement.pseudoInstruction labels address operands p = .ok i) :
    NameRegisters (p.registerTexts operands) := by
  cases p with
  | nop | j | ret => exact nameRegisters_nil
  | mv | not | neg | seqz | snez | sltz | sgtz => exact nameRegisters_of_ofRegisters h
  | beqz | bnez | blez | bgez | bltz | bgtz => exact nameRegisters_of_ofZeroTest h
  | bgt | ble | bgtu | bleu => exact nameRegisters_of_ofSwapped h
  | jr =>
    simp only [Statement.pseudoInstruction] at h
    split at h
    · obtain ⟨base, ha, -⟩ := bind_eq_ok.1 h
      exact nameRegisters_singleton (namesRegister_of_register ha)
    · cases h

/-- **A statement is resolved only if all its registers are named.** -/
theorem nameRegisters_of_instructions {statement : Statement} {resolved : List Instruction}
    (h : statement.instructions labels address = .ok resolved) :
    NameRegisters statement.registerTexts := by
  unfold Statement.instructions at h
  unfold Statement.registerTexts
  split at h
  · next hm =>
    rw [hm]
    obtain ⟨d, n, rd, v, hoperands, hd, -⟩ := loads_of_loadInstructions h
    rw [hoperands]
    exact nameRegisters_singleton ⟨rd, hd, rfl⟩
  · next b hm =>
    rw [hm]
    obtain ⟨i, hi, -⟩ := bind_eq_ok.1 h
    exact (denotes_of_baseInstruction hi).2.nameRegisters
  · next p hm =>
    rw [hm]
    obtain ⟨i, hi, -⟩ := bind_eq_ok.1 h
    exact nameRegisters_of_pseudoInstruction hi
  · exact nomatch h

end Instructions

/-! ## Whole source texts -/

/-- **The names of registers.**  An operand names a register exactly if it has the number of the
register behind an `x` or one of its names of the calling convention, or if it has the number behind
an `x` and a plus sign; any other operand is refused.  A source text with any other text in the
place of a register is not assembled. -/
theorem register_names_iff (operand : String) :
    (∀ r : Register, Operand.register operand = .ok r ↔
      Register.IsSpelling (Register.nameIn operand) r.toNat ∨
        Register.IsSignedSpelling (Register.nameIn operand) r.toNat) ∧
    (Register.IsNoName operand →
      Operand.register operand = .error (.invalidRegister (Text.trimmed operand)) ∧
      ∀ source, ∀ statement ∈ statementsOf source, operand ∈ statement.registerTexts →
        ∃ failure, assemble source = .error failure) := by
  refine ⟨fun r ↦ register_eq_ok.trans Register.read?_eq_some, fun h ↦ ⟨?_,
    fun source statement hstatement htext ↦ ?_⟩⟩
  · rw [Operand.register, h.read?_eq_none]
  · cases hwords : assemble source with
    | error failure => exact ⟨failure, rfl⟩
    | ok words =>
      obtain ⟨layout, pairs, haccepted⟩ := exists_accepted hwords
      rw [statementsOf, ← haccepted.laid.map_statement, ← haccepted.emitted.placed,
        List.map_map] at hstatement
      obtain ⟨pair, hpair, rfl⟩ := List.mem_map.1 hstatement
      obtain ⟨resolved, hresolved, -⟩ :=
        bind_eq_ok.1 (onLine_eq_ok.1 (haccepted.emitted.wordsOf pair hpair))
      obtain ⟨n, r, hr, -⟩ := nameRegisters_of_instructions hresolved operand htext
      exact absurd (hr.symm.trans h.read?_eq_none) (Option.some_ne_none r)

/-- A zero in front of the number is refused, but not behind a sign. -/
theorem register_names_iff_of_zeros :
    Operand.register " X+07" = .ok 7 ∧
      Operand.register "x07" = .error (.invalidRegister "x07") ∧
      ∃ failure, assemble "nop\nlw a0, 4(x07)" = .error failure := by
  have hnone : Register.IsNoName "x07" := by
    intro n
    have hname : Register.nameIn "x07" = ['x', '0', '7'] := by decide +kernel
    rw [hname]
    refine ⟨fun h ↦ ?_, fun ⟨_, _, h⟩ ↦ absurd (List.cons.inj (List.cons.inj h).2).1 (by decide)⟩
    generalize hname : ['x', '0', '7'] = name at h
    cases h with
    | number =>
      have hwrite := (List.cons.inj hname).2
      rw [Text.Numeral.write_eq_of_head?_eq_zero (hwrite ▸ rfl)] at hwrite
      cases hwrite
    | conventional h => exact Register.head?_conventional _ h (hname ▸ rfl)
  obtain ⟨hrefused, hsources⟩ := (register_names_iff "x07").2 hnone
  refine ⟨((register_names_iff " X+07").1 7).2 ?_, hrefused, ?_⟩
  · exact .inr ⟨by decide, 1, by decide +kernel⟩
  · exact hsources _ ⟨2, "lw", ["a0", "4(x07)"]⟩ (by decide +kernel) (by decide +kernel)

end Assembly
end FirmwareLane
