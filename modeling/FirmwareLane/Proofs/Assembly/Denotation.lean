import FirmwareLane.Assembly.Statement
import FirmwareLane.Proofs.Assembly.Decoding
import FirmwareLane.Proofs.Outcome
import FirmwareLane.Proofs.Text.Numeral

/-!
# What the operands of a statement denote

The texts of a statement's operands say which registers it works on and which immediate it has.
`Denotes` is what they say, for each format of instruction: which operand is which register, in the
order of the assembly language, and which number the immediate is, before any of it has been made
to fit into a field.  A branch or a jump may name a label, and then its offset is the distance from
the statement to the address of the label.

## What is here

* One predicate for each kind of operand, and `Denotes` for whole statements.
* `Denotes.unique`: the operands of a statement say one thing only.
* `denotes_of_baseInstruction`: a base instruction is what its operands denote.  It rests on one
  lemma for each reader of an operand, which says that a field that was accepted holds the number
  that was written.
-/

set_option autoImplicit false
namespace FirmwareLane
namespace Assembly

open Outcome

/-! ## Operands -/

/-- The operand names the register of a number. -/
def NamesRegister (operand : String) (number : Nat) : Prop :=
  ∃ r, Register.read? operand.toList = some r ∧ r.toNat = number

/-- The operand is a literal for a number. -/
def StandsFor (operand : String) (value : Int) : Prop :=
  Literal.read? operand.toList = some value

/-- The operand is `offset(register)`, where no offset is the offset zero. -/
def IsMemory (operand : String) (offset : Int) (base : Nat) : Prop :=
  ∃ before inner, Text.trim operand.toList = before ++ '(' :: (inner ++ [')']) ∧ '(' ∉ before ∧
    (if Text.trim before = [] then offset = 0
      else StandsFor (String.ofList (Text.trim before)) offset) ∧
    NamesRegister (String.ofList inner) base

/-- The operand is the target at a distance from an address: a literal for the distance, or a label
at that distance. -/
def IsTarget (labels : Labels) (address : Word) (operand : String) (offset : Int) : Prop :=
  StandsFor operand offset ∨
    Literal.read? operand.toList = none ∧
      ∃ a, labels.lookup operand = some a ∧ offset = a.toNat - address.toNat

/-- The accesses whose letters are in a text. -/
def Accesses.ofLetters (letters : List Char) : Accesses :=
  ⟨letters.contains 'i', letters.contains 'o', letters.contains 'r', letters.contains 'w'⟩

/-- The operand is a set of accesses, in letters of either case. -/
def IsAccesses (operand : String) (set : Accesses) : Prop :=
  set = Accesses.ofLetters ((Text.trim operand.toList).map Char.toLower)

/-! ## Statements -/

/-- The operands of a base instruction of a format, where the statement stands at an address. -/
inductive Denotes (labels : Labels) (address : Word) : Format → List String → Operands → Prop
  | register {g : BitVec 7} {f : BitVec 3} {d a b : String} {rd rs1 rs2 : Nat}
      (hd : NamesRegister d rd) (ha : NamesRegister a rs1) (hb : NamesRegister b rs2) :
      Denotes labels address (.register g f) [d, a, b] (.register rd rs1 rs2)
  | immediate {f : BitVec 3} {d a n : String} {rd rs1 : Nat} {value : Int}
      (hd : NamesRegister d rd) (ha : NamesRegister a rs1) (hn : StandsFor n value) :
      Denotes labels address (.immediate f) [d, a, n] (.immediate rd rs1 value)
  | shift {g : BitVec 7} {f : BitVec 3} {d a n : String} {rd rs1 amount : Nat}
      (hd : NamesRegister d rd) (ha : NamesRegister a rs1) (hn : StandsFor n amount) :
      Denotes labels address (.shift g f) [d, a, n] (.shift rd rs1 amount)
  | load {f : BitVec 3} {d m : String} {rd base : Nat} {offset : Int}
      (hd : NamesRegister d rd) (hm : IsMemory m offset base) :
      Denotes labels address (.load f) [d, m] (.immediate rd base offset)
  | store {f : BitVec 3} {s m : String} {source base : Nat} {offset : Int}
      (hs : NamesRegister s source) (hm : IsMemory m offset base) :
      Denotes labels address (.store f) [s, m] (.store base source offset)
  | branch {f : BitVec 3} {a b t : String} {rs1 rs2 : Nat} {offset : Int}
      (ha : NamesRegister a rs1) (hb : NamesRegister b rs2)
      (ht : IsTarget labels address t offset) :
      Denotes labels address (.branch f) [a, b, t] (.branch rs1 rs2 offset)
  /-- Upper bits count modulo the twenty bits that there are. -/
  | upper {op : BitVec 7} {d n : String} {rd : Nat} {value : Int}
      (hd : NamesRegister d rd) (hn : StandsFor n value) :
      Denotes labels address (.upper op) [d, n] (.upper rd (value % 2 ^ 20).toNat)
  | jal {d t : String} {rd : Nat} {offset : Int}
      (hd : NamesRegister d rd) (ht : IsTarget labels address t offset) :
      Denotes labels address .jal [d, t] (.jump rd offset)
  /-- A jump without a destination register leaves the return address in register 1. -/
  | call {t : String} {offset : Int} (ht : IsTarget labels address t offset) :
      Denotes labels address .jal [t] (.jump 1 offset)
  | jalr {d a n : String} {rd rs1 : Nat} {value : Int}
      (hd : NamesRegister d rd) (ha : NamesRegister a rs1) (hn : StandsFor n value) :
      Denotes labels address .jalr [d, a, n] (.immediate rd rs1 value)
  | jalrMemory {d m : String} {rd base : Nat} {offset : Int}
      (hd : NamesRegister d rd) (hm : IsMemory m offset base) :
      Denotes labels address .jalr [d, m] (.immediate rd base offset)
  | jalrRegister {d a : String} {rd rs1 : Nat}
      (hd : NamesRegister d rd) (ha : NamesRegister a rs1) :
      Denotes labels address .jalr [d, a] (.immediate rd rs1 0)
  | callRegister {a : String} {rs1 : Nat} (ha : NamesRegister a rs1) :
      Denotes labels address .jalr [a] (.immediate 1 rs1 0)
  | fence {p s : String} {before after : Accesses}
      (hp : IsAccesses p before) (hs : IsAccesses s after) :
      Denotes labels address .fence [p, s] (.fence before after)
  /-- A fence without operands orders all accesses. -/
  | fenceAll :
      Denotes labels address .fence []
        (.fence ⟨true, true, true, true⟩ ⟨true, true, true, true⟩)
  | system {code : BitVec 12} : Denotes labels address (.system code) [] .none

/-! ## The operands say one thing only -/

theorem NamesRegister.unique {operand : String} {m n : Nat} (hm : NamesRegister operand m)
    (hn : NamesRegister operand n) : m = n := by
  obtain ⟨r, hr, rfl⟩ := hm
  obtain ⟨s, hs, rfl⟩ := hn
  rw [Option.some.inj (hr.symm.trans hs)]

theorem StandsFor.unique {operand : String} {m n : Int} (hm : StandsFor operand m)
    (hn : StandsFor operand n) : m = n :=
  Option.some.inj (Eq.trans (Eq.symm hm) hn)

theorem IsTarget.unique {labels : Labels} {address : Word} {operand : String} {m n : Int}
    (hm : IsTarget labels address operand m) (hn : IsTarget labels address operand n) : m = n := by
  rcases hm with hm | ⟨hm, a, ha, rfl⟩ <;> rcases hn with hn | ⟨hn, b, hb, rfl⟩
  · exact hm.unique hn
  · exact absurd (Eq.trans (Eq.symm hn) hm) (by simp)
  · exact absurd (Eq.trans (Eq.symm hm) hn) (by simp)
  · rw [Option.some.inj (ha.symm.trans hb)]

theorem IsMemory.unique {operand : String} {m n : Int} {a b : Nat} (hm : IsMemory operand m a)
    (hn : IsMemory operand n b) : m = n ∧ a = b := by
  obtain ⟨before, inner, htext, hbefore, hm, ha⟩ := hm
  obtain ⟨before', inner', htext', hbefore', hn, hb⟩ := hn
  -- both cut the text at its first parenthesis and drop the last one
  have hcut := Text.cutAt?_eq_some.2 ⟨htext, hbefore⟩
  have hcut' := Text.cutAt?_eq_some.2 ⟨htext', hbefore'⟩
  obtain ⟨rfl, hinner⟩ := Prod.mk.inj (Option.some.inj (hcut.symm.trans hcut'))
  obtain rfl := List.append_cancel_right hinner
  refine ⟨?_, ha.unique hb⟩
  split at hm
  · rw [if_pos ‹_›] at hn
    rw [hm, hn]
  · rw [if_neg ‹_›] at hn
    exact hm.unique hn

theorem number?_eq_none_of_mem {digits : List Char} (h : '(' ∈ digits) :
    Register.number? digits = none := by
  have hnone : ∀ {text : List Char}, '(' ∈ text → Text.Numeral.read? 10 text = none :=
    fun htext ↦ Text.Numeral.read?_eq_none_of_mem (by decide) htext
  unfold Register.number?
  split <;> dsimp only
  · rw [hnone (by simpa using h)]
  · rw [hnone h]

/-- No spelling of a register has a parenthesis in it. -/
theorem not_mem_of_namesRegister {operand : String} {number : Nat}
    (h : NamesRegister operand number) : '(' ∉ Text.trim operand.toList := by
  intro hmem
  obtain ⟨r, hr, -⟩ := h
  have hlower : '(' ∈ (Text.trim operand.toList).map Char.toLower :=
    List.mem_map.2 ⟨'(', hmem, rfl⟩
  rw [Register.read?] at hr
  generalize (Text.trim operand.toList).map Char.toLower = name at hr hlower
  have hnames : (Register.names.find? fun entry ↦ entry.1 == String.ofList name) = none := by
    rw [List.find?_eq_none]
    intro entry hentry heq
    have hall : ∀ entry ∈ Register.names, '(' ∉ entry.1.toList := by decide
    rw [beq_iff_eq] at heq
    exact hall entry hentry (by rwa [heq, String.toList_ofList])
  have hnumber : ∀ {digits : List Char}, name = 'x' :: digits → Register.number? digits = none := by
    rintro digits rfl
    exact number?_eq_none_of_mem (by simpa using hlower)
  unfold Register.ofSpelling? at hr
  split at hr
  · rw [hnumber rfl, hnames] at hr
    exact nomatch hr
  · rw [hnames] at hr
    exact nomatch hr

theorem IsMemory.not_namesRegister {operand : String} {offset : Int} {base number : Nat}
    (h : IsMemory operand offset base) : ¬ NamesRegister operand number := by
  obtain ⟨before, inner, htext, -⟩ := h
  exact fun hr ↦ not_mem_of_namesRegister hr (htext ▸ by simp)

/-- **The operands of a statement denote one thing only.** -/
theorem Denotes.unique {labels : Labels} {address : Word} {format : Format}
    {operands : List String} {m n : Operands} (hm : Denotes labels address format operands m)
    (hn : Denotes labels address format operands n) : m = n := by
  cases hm with
  | register hd ha hb =>
    cases hn with
    | register hd' ha' hb' => rw [hd.unique hd', ha.unique ha', hb.unique hb']
  | immediate hd ha hv =>
    cases hn with
    | immediate hd' ha' hv' => rw [hd.unique hd', ha.unique ha', hv.unique hv']
  | shift hd ha hv =>
    cases hn with
    | shift hd' ha' hv' => rw [hd.unique hd', ha.unique ha', Int.ofNat.inj (hv.unique hv')]
  | load hd hm =>
    cases hn with
    | load hd' hm' => rw [hd.unique hd', (hm.unique hm').1, (hm.unique hm').2]
  | store hs hm =>
    cases hn with
    | store hs' hm' => rw [hs.unique hs', (hm.unique hm').1, (hm.unique hm').2]
  | branch ha hb ht =>
    cases hn with
    | branch ha' hb' ht' => rw [ha.unique ha', hb.unique hb', ht.unique ht']
  | upper hd hv =>
    cases hn with
    | upper hd' hv' => rw [hd.unique hd', hv.unique hv']
  | jal hd ht =>
    cases hn with
    | jal hd' ht' => rw [hd.unique hd', ht.unique ht']
  | call ht =>
    cases hn with
    | call ht' => rw [ht.unique ht']
  | jalr hd ha hv =>
    cases hn with
    | jalr hd' ha' hv' => rw [hd.unique hd', ha.unique ha', hv.unique hv']
  | jalrMemory hd hm =>
    cases hn with
    | jalrMemory hd' hm' => rw [hd.unique hd', (hm.unique hm').1, (hm.unique hm').2]
    | jalrRegister hd' ha' => exact absurd ha' hm.not_namesRegister
  | jalrRegister hd ha =>
    cases hn with
    | jalrMemory hd' hm' => exact absurd ha hm'.not_namesRegister
    | jalrRegister hd' ha' => rw [hd.unique hd', ha.unique ha']
  | callRegister ha =>
    cases hn with
    | callRegister ha' => rw [ha.unique ha']
  | fence hp hs =>
    cases hn with
    | fence hp' hs' => rw [hp, hs, hp', hs']
  | fenceAll =>
    cases hn with
    | fenceAll => rfl
  | system =>
    cases hn with
    | system => rfl

/-! ## Reading an operand -/

theorem namesRegister_of_register {operand : String} {r : Register}
    (h : Operand.register operand = .ok r) : NamesRegister operand r.toNat := by
  rw [Operand.register] at h
  split at h
  · next s hs => exact ⟨s, hs, congrArg BitVec.toNat (Except.ok.inj h)⟩
  · exact nomatch h

theorem standsFor_of_integer {operand : String} {value : Int}
    (h : Operand.integer operand = .ok value) : StandsFor operand value := by
  rw [Operand.integer] at h
  split at h
  · next n hn => exact Except.ok.inj h ▸ hn
  · exact nomatch h

theorem least_eq (bits : Nat) : Operand.least bits = -2 ^ (bits - 1) := by
  rw [Operand.least, Nat.pow_eq, Nat.cast_pow, Nat.cast_ofNat]

theorem greatest_eq (bits : Nat) : Operand.greatest bits = 2 ^ (bits - 1) - 1 := by
  rw [Operand.greatest, Nat.pow_eq, Nat.cast_pow, Nat.cast_ofNat]

/-- **A signed field that was accepted holds the number that was written.** -/
theorem toInt_of_signed {bits : Nat} {value : Int} {field : BitVec bits} (hbits : 0 < bits)
    (h : Operand.signed bits value = .ok field) : field.toInt = value := by
  rw [Operand.signed] at h
  split at h
  · next hrange =>
    rw [least_eq, greatest_eq] at hrange
    rw [← Except.ok.inj h]
    exact BitVec.toInt_ofInt_eq_self hbits hrange.1 (by omega)
  · exact nomatch h

theorem standsFor_of_signed {operand : String} {n : Int} {value : BitVec 12}
    (hn : Operand.integer operand = .ok n) (hvalue : Operand.signed 12 n = .ok value) :
    StandsFor operand value.toInt := by
  rw [toInt_of_signed (by decide) hvalue]
  exact standsFor_of_integer hn

theorem standsFor_of_shiftAmount {operand : String} {amount : BitVec 5}
    (h : Operand.shiftAmount operand = .ok amount) : StandsFor operand amount.toNat := by
  obtain ⟨value, hvalue, h⟩ := bind_eq_ok.1 h
  split at h
  · next hrange =>
    have hfield : (amount.toNat : Int) = value := by
      rw [← Except.ok.inj h, BitVec.toNat_ofInt]
      omega
    exact hfield ▸ standsFor_of_integer hvalue
  · exact nomatch h

theorem exists_of_upper {operand : String} {field : BitVec 20}
    (h : Operand.upper operand = .ok field) :
    ∃ value, StandsFor operand value ∧ (value % 2 ^ 20).toNat = field.toNat := by
  obtain ⟨value, hvalue, h⟩ := bind_eq_ok.1 h
  refine ⟨value, standsFor_of_integer hvalue, ?_⟩
  split at h
  · rw [← Except.ok.inj h, BitVec.toNat_ofInt]
    rfl
  · exact nomatch h

theorem isMemory_of_memory {operand : String} {offset : Int} {base : Register}
    (h : Operand.memory operand = .ok (offset, base)) : IsMemory operand offset base.toNat := by
  rw [Operand.memory] at h
  split at h
  · exact nomatch h
  · next before after hcut =>
    obtain ⟨htext, hbefore⟩ := Text.cutAt?_eq_some.1 hcut
    split at h
    · exact nomatch h
    · next inner hinner =>
      rw [Text.dropLast?_eq_some] at hinner
      have hbase : ∀ {n : Int}, (do return (n, ← Operand.register (String.ofList inner)) :
          Except Fault (Int × Register)) = .ok (offset, base) →
            n = offset ∧ NamesRegister (String.ofList inner) base.toNat := by
        intro n h
        obtain ⟨r, hr, h⟩ := bind_eq_ok.1 h
        obtain ⟨rfl, rfl⟩ := Prod.mk.inj (pure_eq_ok.1 h)
        exact ⟨rfl, namesRegister_of_register hr⟩
      dsimp only at h
      split at h
      · next hempty =>
        obtain ⟨rfl, hr⟩ := hbase h
        exact ⟨before, inner, hinner ▸ htext, hbefore, by rw [if_pos (List.isEmpty_iff.1 hempty)], hr⟩
      · next hempty =>
        obtain ⟨n, hn, h⟩ := bind_eq_ok.1 h
        obtain ⟨rfl, hr⟩ := hbase h
        refine ⟨before, inner, hinner ▸ htext, hbefore, ?_, hr⟩
        rw [if_neg (mt List.isEmpty_iff.2 hempty)]
        exact standsFor_of_integer hn

theorem isMemory_of_signed {operand : String} {n : Int} {base : Register} {offset : BitVec 12}
    (hm : Operand.memory operand = .ok (n, base)) (hoffset : Operand.signed 12 n = .ok offset) :
    IsMemory operand offset.toInt base.toNat := by
  rw [toInt_of_signed (by decide) hoffset]
  exact isMemory_of_memory hm

theorem isTarget_of_distance {labels : Labels} {address : Word} {operand : String} {offset : Int}
    (h : Operand.distance labels address operand = .ok offset) :
    IsTarget labels address operand offset := by
  rw [Operand.distance] at h
  split at h
  · next n hn => exact .inl (Except.ok.inj h ▸ standsFor_of_integer hn)
  · next fault hfault =>
    have hliteral : Literal.read? operand.toList = none := by
      rw [Operand.integer] at hfault
      split at hfault
      · exact nomatch hfault
      · assumption
    split at h
    · split at h
      · next a ha => exact .inr ⟨hliteral, a, ha, (Except.ok.inj h).symm⟩
      · exact nomatch h
    · exact nomatch h

/-- **The field of a target holds half the offset**, and the offset is even. -/
theorem isTarget_of_target {bits : Nat} {labels : Labels} {address : Word} {operand : String}
    {field : BitVec bits} (hbits : 0 < bits)
    (h : Operand.target bits labels address operand = .ok field) :
    IsTarget labels address operand (2 * field.toInt) := by
  obtain ⟨offset, hoffset, h⟩ := bind_eq_ok.1 h
  split at h
  · exact nomatch h
  · next heven =>
    obtain ⟨wide, hwide, h⟩ := bind_eq_ok.1 h
    have hhalf : 2 * field.toInt = offset := by
      rw [Operand.signed] at hwide
      split at hwide
      · next hrange =>
        rw [least_eq, greatest_eq, Nat.add_sub_cancel] at hrange
        have hpow : (2 : Int) ^ bits = 2 * 2 ^ (bits - 1) := by
          rw [← Int.pow_succ', Nat.sub_add_cancel hbits]
        have hfield : field.toInt = offset / 2 := by
          rw [← pure_eq_ok.1 h]
          exact BitVec.toInt_ofInt_eq_self hbits (by omega) (by omega)
        omega
      · exact nomatch hwide
    exact hhalf ▸ isTarget_of_distance hoffset

/-! ### Sets of accesses -/

/-- The set with the accesses of more letters. -/
theorem accesses_of_accesses? {letters : List Char} {set result : BitVec 4}
    (h : Operand.accesses? set letters = some result) :
    Word.accesses result =
      ⟨set.getLsbD 3 || letters.contains 'i', set.getLsbD 2 || letters.contains 'o',
        set.getLsbD 1 || letters.contains 'r', set.getLsbD 0 || letters.contains 'w'⟩ := by
  induction letters generalizing set with
  | nil =>
    rw [Operand.accesses?, Option.some.injEq] at h
    simp [Word.accesses, h]
  | cons c rest ih =>
    rw [Operand.accesses?] at h
    split at h
    · exact nomatch h
    · next bit hbit =>
      split at h
      · rw [ih h]
        -- one case for each letter
        unfold Operand.accessBit? at hbit
        split at hbit
        case h_5 => exact nomatch hbit
        all_goals
          obtain rfl := Option.some.inj hbit
          simp
      · exact nomatch h

theorem isAccesses_of_fenceSet {operand : String} {set : BitVec 4}
    (h : Operand.fenceSet operand = .ok set) : IsAccesses operand (Word.accesses set) := by
  rw [Operand.fenceSet] at h
  split at h
  · exact nomatch h
  · next result hresult =>
    split at h
    · exact nomatch h
    · rw [IsAccesses, ← Except.ok.inj h, accesses_of_accesses? hresult]
      simp [Accesses.ofLetters]

/-! ## Base instructions -/

section Instructions

variable {labels : Labels} {address : Word} {operands : List String} {i : Instruction}

/-- The destination of a jump may be left out. -/
theorem denotes_of_jal (h : Statement.baseInstruction labels address operands .jal = .ok i) :
    i.base = .jal ∧ Denotes labels address .jal operands i.operands := by
  simp only [Statement.baseInstruction] at h
  split at h
  · obtain ⟨offset, ht, h⟩ := bind_eq_ok.1 h
    obtain rfl := pure_eq_ok.1 h
    exact ⟨rfl, .call (isTarget_of_target (by decide) ht)⟩
  · obtain ⟨rd, hd, h⟩ := bind_eq_ok.1 h
    obtain ⟨offset, ht, h⟩ := bind_eq_ok.1 h
    obtain rfl := pure_eq_ok.1 h
    exact ⟨rfl, .jal (namesRegister_of_register hd) (isTarget_of_target (by decide) ht)⟩
  · cases h

/-- The destination of an indirect jump may be left out with the offset, and there are two ways to
write the address. -/
theorem denotes_of_jalr (h : Statement.baseInstruction labels address operands .jalr = .ok i) :
    i.base = .jalr ∧ Denotes labels address .jalr operands i.operands := by
  simp only [Statement.baseInstruction] at h
  split at h
  · obtain ⟨rs1, ha, h⟩ := bind_eq_ok.1 h
    obtain rfl := pure_eq_ok.1 h
    exact ⟨rfl, .callRegister (namesRegister_of_register ha)⟩
  · split at h
    · obtain ⟨⟨n, base⟩, hm, h⟩ := bind_eq_ok.1 h
      obtain ⟨rd, hd, h⟩ := bind_eq_ok.1 h
      obtain ⟨offset, hoffset, h⟩ := bind_eq_ok.1 h
      obtain rfl := pure_eq_ok.1 h
      exact ⟨rfl, .jalrMemory (namesRegister_of_register hd) (isMemory_of_signed hm hoffset)⟩
    · obtain ⟨rd, hd, h⟩ := bind_eq_ok.1 h
      obtain ⟨rs1, ha, h⟩ := bind_eq_ok.1 h
      obtain rfl := pure_eq_ok.1 h
      exact ⟨rfl, .jalrRegister (namesRegister_of_register hd) (namesRegister_of_register ha)⟩
  · obtain ⟨rd, hd, h⟩ := bind_eq_ok.1 h
    obtain ⟨rs1, ha, h⟩ := bind_eq_ok.1 h
    obtain ⟨n, hn, h⟩ := bind_eq_ok.1 h
    obtain ⟨value, hvalue, h⟩ := bind_eq_ok.1 h
    obtain rfl := pure_eq_ok.1 h
    exact ⟨rfl, .jalr (namesRegister_of_register hd) (namesRegister_of_register ha)
      (standsFor_of_signed hn hvalue)⟩
  · cases h

/-- **A base instruction is what its operands denote**, in the format of its name. -/
theorem denotes_of_baseInstruction {b : Base}
    (h : Statement.baseInstruction labels address operands b = .ok i) :
    i.base = b ∧ Denotes labels address b.format operands i.operands := by
  cases b with
  | register op =>
    simp only [Statement.baseInstruction] at h
    split at h
    · obtain ⟨rs2, hb, h⟩ := bind_eq_ok.1 h
      obtain ⟨rs1, ha, h⟩ := bind_eq_ok.1 h
      obtain ⟨rd, hd, h⟩ := bind_eq_ok.1 h
      obtain rfl := pure_eq_ok.1 h
      exact ⟨rfl, .register (namesRegister_of_register hd) (namesRegister_of_register ha)
        (namesRegister_of_register hb)⟩
    · cases h
  | immediate op =>
    simp only [Statement.baseInstruction] at h
    split at h
    · obtain ⟨n, hn, h⟩ := bind_eq_ok.1 h
      obtain ⟨value, hvalue, h⟩ := bind_eq_ok.1 h
      obtain ⟨rs1, ha, h⟩ := bind_eq_ok.1 h
      obtain ⟨rd, hd, h⟩ := bind_eq_ok.1 h
      obtain rfl := pure_eq_ok.1 h
      exact ⟨rfl, .immediate (namesRegister_of_register hd) (namesRegister_of_register ha)
        (standsFor_of_signed hn hvalue)⟩
    · cases h
  | shift op =>
    simp only [Statement.baseInstruction] at h
    split at h
    · obtain ⟨amount, hn, h⟩ := bind_eq_ok.1 h
      obtain ⟨rs1, ha, h⟩ := bind_eq_ok.1 h
      obtain ⟨rd, hd, h⟩ := bind_eq_ok.1 h
      obtain rfl := pure_eq_ok.1 h
      exact ⟨rfl, .shift (namesRegister_of_register hd) (namesRegister_of_register ha)
        (standsFor_of_shiftAmount hn)⟩
    · cases h
  | load op =>
    simp only [Statement.baseInstruction] at h
    split at h
    · obtain ⟨⟨n, base⟩, hm, h⟩ := bind_eq_ok.1 h
      obtain ⟨offset, hoffset, h⟩ := bind_eq_ok.1 h
      obtain ⟨rd, hd, h⟩ := bind_eq_ok.1 h
      obtain rfl := pure_eq_ok.1 h
      exact ⟨rfl, .load (namesRegister_of_register hd) (isMemory_of_signed hm hoffset)⟩
    · cases h
  | store op =>
    simp only [Statement.baseInstruction] at h
    split at h
    · obtain ⟨⟨n, base⟩, hm, h⟩ := bind_eq_ok.1 h
      obtain ⟨offset, hoffset, h⟩ := bind_eq_ok.1 h
      obtain ⟨source, hs, h⟩ := bind_eq_ok.1 h
      obtain rfl := pure_eq_ok.1 h
      exact ⟨rfl, .store (namesRegister_of_register hs) (isMemory_of_signed hm hoffset)⟩
    · cases h
  | branch op =>
    simp only [Statement.baseInstruction] at h
    split at h
    · obtain ⟨offset, ht, h⟩ := bind_eq_ok.1 h
      obtain ⟨rs2, hb, h⟩ := bind_eq_ok.1 h
      obtain ⟨rs1, ha, h⟩ := bind_eq_ok.1 h
      obtain rfl := pure_eq_ok.1 h
      exact ⟨rfl, .branch (namesRegister_of_register ha) (namesRegister_of_register hb)
        (isTarget_of_target (by decide) ht)⟩
    · cases h
  | upper op =>
    simp only [Statement.baseInstruction] at h
    split at h
    · obtain ⟨value, hvalue, h⟩ := bind_eq_ok.1 h
      obtain ⟨rd, hd, h⟩ := bind_eq_ok.1 h
      obtain rfl := pure_eq_ok.1 h
      obtain ⟨n, hn, hfield⟩ := exists_of_upper hvalue
      rw [Instruction.operands, ← hfield]
      exact ⟨rfl, .upper (namesRegister_of_register hd) hn⟩
    · cases h
  | jal => exact denotes_of_jal h
  | jalr => exact denotes_of_jalr h
  | fence =>
    simp only [Statement.baseInstruction] at h
    split at h
    · obtain rfl := Except.ok.inj h
      exact ⟨rfl, .fenceAll⟩
    · obtain ⟨before, hp, h⟩ := bind_eq_ok.1 h
      obtain ⟨after, hs, h⟩ := bind_eq_ok.1 h
      obtain rfl := pure_eq_ok.1 h
      exact ⟨rfl, .fence (isAccesses_of_fenceSet hp) (isAccesses_of_fenceSet hs)⟩
    · cases h
  | system op =>
    simp only [Statement.baseInstruction] at h
    split at h
    · obtain rfl := Except.ok.inj h
      exact ⟨rfl, .system⟩
    · cases h

end Instructions
end Assembly
end FirmwareLane
