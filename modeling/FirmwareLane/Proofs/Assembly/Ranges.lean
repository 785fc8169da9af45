import FirmwareLane.Proofs.Assembly.Expansion
import FirmwareLane.Proofs.Assembly.Layout
import FirmwareLane.Proofs.Assembly.RegisterNames
import FirmwareLane.Proofs.Assembly.Soundness

/-!
# The ranges of immediates and targets

Each format of instruction has a field for a number, and so a range of numbers.  A statement whose
other operands are in order is accepted exactly for the numbers in the range of its format, however
the number is written, how large it is, and, for a branch or a jump, whether it is written out or is
the distance to a label.

## What is here

* `Format.Admits` are the ranges, and `HasNumber` says which number a statement has, and what its
  range is.
* `HasNumber.resolves_instructions`: such a statement is resolved exactly if the number is in range.
  It rests on `resolves_integer_bind`, that a literal too large to be read is out of every range.
* `HasNumber.spell`: such a statement can be written on a line.
* `ranges_exact` is about whole source texts.
-/

set_option autoImplicit false
namespace FirmwareLane
namespace Assembly

open Outcome

/-! ## The ranges -/

/-- The numbers that the field of a format may stand for. -/
def Format.Admits : Format → Int → Prop
  | .immediate _, n | .load _, n | .store _, n | .jalr, n => -2048 ≤ n ∧ n ≤ 2047
  | .shift _ _, n => 0 ≤ n ∧ n ≤ 31
  | .branch _, n => n % 2 = 0 ∧ -4096 ≤ n ∧ n ≤ 4094
  | .jal, n => n % 2 = 0 ∧ -1048576 ≤ n ∧ n ≤ 1048574
  | .upper _, n => -524288 ≤ n ∧ n ≤ 1048575
  | .register _ _, _ | .fence, _ | .system _, _ => False

instance Format.decidableAdmits : (format : Format) → (n : Int) → Decidable (format.Admits n)
  | .immediate _, n | .load _, n | .store _, n | .jalr, n =>
    inferInstanceAs (Decidable (-2048 ≤ n ∧ n ≤ 2047))
  | .shift _ _, n => inferInstanceAs (Decidable (0 ≤ n ∧ n ≤ 31))
  | .branch _, n => inferInstanceAs (Decidable (n % 2 = 0 ∧ -4096 ≤ n ∧ n ≤ 4094))
  | .jal, n => inferInstanceAs (Decidable (n % 2 = 0 ∧ -1048576 ≤ n ∧ n ≤ 1048574))
  | .upper _, n => inferInstanceAs (Decidable (-524288 ≤ n ∧ n ≤ 1048575))
  | .register _ _, _ | .fence, _ | .system _, _ => inferInstanceAs (Decidable False)

/-- The numbers that a word may stand for, with a sign or without. -/
def LoadAdmits (n : Int) : Prop := -2147483648 ≤ n ∧ n ≤ 4294967295

instance decidableLoadAdmits (n : Int) : Decidable (LoadAdmits n) :=
  inferInstanceAs (Decidable (_ ∧ _))

/-- The operand is a literal for an integer of any size. -/
def IsInteger (operand : String) (n : Int) : Prop :=
  Literal.IsLiteral (Text.trim operand.toList) n

/-- The operand is a literal for an integer of any size, and a register in parentheses. -/
def IsOffset (operand : String) (n : Int) (base : Nat) : Prop :=
  ∃ before inner, Text.trim operand.toList = before ++ '(' :: (inner ++ [')']) ∧
    Literal.IsLiteral (Text.trim before) n ∧ NamesRegister (String.ofList inner) base

/-- The operand is a declared label at a distance from an address. -/
def IsLabelAt (labels : Labels) (address : Word) (operand : String) (n : Int) : Prop :=
  Literal.read? operand.toList = none ∧
    ∃ a, labels.lookup operand = some a ∧ n = a.toNat - address.toNat

/-- The operands of a base instruction of a format, with a number for its field.  What the target of
a branch or a jump may be is left open. -/
inductive Takes (IsTarget : String → Int → Prop) : Format → List String → Int → Prop
  | immediate {f : BitVec 3} {d a v : String} {rd rs1 : Nat} {n : Int} (hd : NamesRegister d rd)
      (ha : NamesRegister a rs1) (hv : IsInteger v n) : Takes IsTarget (.immediate f) [d, a, v] n
  | shift {g : BitVec 7} {f : BitVec 3} {d a v : String} {rd rs1 : Nat} {n : Int}
      (hd : NamesRegister d rd) (ha : NamesRegister a rs1) (hv : IsInteger v n) :
      Takes IsTarget (.shift g f) [d, a, v] n
  | load {f : BitVec 3} {d m : String} {rd base : Nat} {n : Int} (hd : NamesRegister d rd)
      (hm : IsOffset m n base) : Takes IsTarget (.load f) [d, m] n
  | store {f : BitVec 3} {s m : String} {source base : Nat} {n : Int}
      (hs : NamesRegister s source) (hm : IsOffset m n base) : Takes IsTarget (.store f) [s, m] n
  | branch {f : BitVec 3} {a b t : String} {rs1 rs2 : Nat} {n : Int} (ha : NamesRegister a rs1)
      (hb : NamesRegister b rs2) (ht : IsTarget t n) : Takes IsTarget (.branch f) [a, b, t] n
  | upper {op : BitVec 7} {d v : String} {rd : Nat} {n : Int} (hd : NamesRegister d rd)
      (hv : IsInteger v n) : Takes IsTarget (.upper op) [d, v] n
  | jal {d t : String} {rd : Nat} {n : Int} (hd : NamesRegister d rd) (ht : IsTarget t n) :
      Takes IsTarget .jal [d, t] n
  | call {t : String} {n : Int} (ht : IsTarget t n) : Takes IsTarget .jal [t] n
  | jalr {d a v : String} {rd rs1 : Nat} {n : Int} (hd : NamesRegister d rd)
      (ha : NamesRegister a rs1) (hv : IsInteger v n) : Takes IsTarget .jalr [d, a, v] n
  | jalrOffset {d m : String} {rd base : Nat} {n : Int} (hd : NamesRegister d rd)
      (hm : IsOffset m n base) : Takes IsTarget .jalr [d, m] n

/-! ## Reading a number into a field -/

/-- A computation succeeds. -/
def Resolves {α : Type} (x : Except Fault α) : Prop := ∃ a, x = .ok a

section Resolves

variable {α β : Type}

theorem resolves_pure (a : α) : Resolves (pure a) := ⟨a, rfl⟩

theorem not_resolves_error (fault : Fault) : ¬ Resolves (.error fault : Except Fault α) := by
  rintro ⟨a, h⟩
  cases h

theorem resolves_bind {x : Except Fault α} {f : α → Except Fault β}
    (hf : ∀ a, Resolves (f a)) : Resolves (x >>= f) ↔ Resolves x := by
  cases x with
  | error fault => exact iff_of_false (not_resolves_error fault) (not_resolves_error fault)
  | ok a => exact ⟨fun _ ↦ ⟨a, rfl⟩, fun _ ↦ hf a⟩

theorem resolves_ite {p : Prop} [Decidable p] {a : α} {fault : Fault} :
    Resolves (if p then .ok a else .error fault) ↔ p := by
  split
  · next h => exact iff_of_true ⟨a, rfl⟩ h
  · next h => exact iff_of_false (not_resolves_error fault) h

theorem resolves_signed (bits : Nat) (n : Int) :
    Resolves (Operand.signed bits n) ↔ -2 ^ (bits - 1) ≤ n ∧ n ≤ 2 ^ (bits - 1) - 1 := by
  rw [Operand.signed, resolves_ite, least_eq, greatest_eq]

theorem IsInteger.read?_eq {operand : String} {n : Int} (h : IsInteger operand n) :
    Literal.read? operand.toList = if n.natAbs < Literal.bound then some n else none :=
  Literal.value?_of_isLiteral h

/-- What can be made of a number that was read is made of the number that was written, if that is
too large to be read only where nothing can be made of it. -/
theorem resolves_integer_bind {operand : String} {n : Int} (h : IsInteger operand n)
    {f : Int → Except Fault β} {P : Prop} (hf : Resolves (f n) ↔ P)
    (hP : P → n.natAbs < Literal.bound) : Resolves (Operand.integer operand >>= f) ↔ P := by
  rw [Operand.integer, h.read?_eq]
  by_cases hsmall : n.natAbs < Literal.bound
  · rw [if_pos hsmall]
    exact hf
  · rw [if_neg hsmall]
    exact iff_of_false (not_resolves_error _) fun hp ↦ hsmall (hP hp)

end Resolves

theorem bound_eq : Literal.bound = 9223372036854775808 := rfl

/-! ### What literals are written with -/

/-- Characters of registers, literals and offsets with the blanks around them. -/
def IsPlain (s : List Char) : Prop :=
  ∀ c ∈ s, isIdentifierPart c = true ∨ c ∈ ['+', '-', '(', ')'] ∨ Text.isBlank c = true

theorem isPlain_of_trim {s : List Char} (h : IsPlain (Text.trim s)) : IsPlain s := by
  intro c hc
  by_cases hblank : Text.isBlank c = true
  · exact .inr (.inr hblank)
  · exact h c (Text.mem_trim hc (by simpa using hblank))

theorem IsPlain.append {s t : List Char} (hs : IsPlain s) (ht : IsPlain t) : IsPlain (s ++ t) :=
  fun c hc ↦ (List.mem_append.1 hc).elim (hs c) (ht c)

theorem isPlain_of_isLiteral {s : List Char} {n : Int} (h : Literal.IsLiteral s n) :
    s ≠ [] ∧ ∀ c ∈ s, isIdentifierPart c = true ∨ c = '+' ∨ c = '-' := by
  cases h with
  | unsigned h => exact ⟨h.ne_nil, fun c hc ↦ .inl (h.of_mem hc)⟩
  | plus h =>
    refine ⟨List.cons_ne_nil _ _, fun c hc ↦ ?_⟩
    exact (List.mem_cons.1 hc).elim (.inr ∘ .inl) (.inl ∘ h.of_mem)
  | minus h =>
    refine ⟨List.cons_ne_nil _ _, fun c hc ↦ ?_⟩
    exact (List.mem_cons.1 hc).elim (.inr ∘ .inr) (.inl ∘ h.of_mem)

section Fields

variable {β : Type} {operand : String} {n : Int}

theorem resolves_immediate (h : IsInteger operand n) {f : BitVec 12 → Except Fault β}
    (hf : ∀ field, Resolves (f field)) :
    Resolves (Operand.integer operand >>= fun v ↦ Operand.signed 12 v >>= f) ↔
      -2048 ≤ n ∧ n ≤ 2047 := by
  refine resolves_integer_bind h ?_ (by rw [bound_eq]; omega)
  rw [resolves_bind hf, resolves_signed]
  norm_num

theorem resolves_shiftAmount (h : IsInteger operand n) :
    Resolves (Operand.shiftAmount operand) ↔ 0 ≤ n ∧ n ≤ 31 := by
  refine resolves_integer_bind h ?_ (by rw [bound_eq]; omega)
  rw [resolves_ite]
  omega

theorem resolves_upper (h : IsInteger operand n) :
    Resolves (Operand.upper operand) ↔ -524288 ≤ n ∧ n ≤ 1048575 := by
  refine resolves_integer_bind h ?_ (by rw [bound_eq]; omega)
  rw [resolves_ite]
  simp only [Nat.pow_eq]
  omega

theorem resolves_constant (h : IsInteger operand n) :
    Resolves (Operand.constant operand) ↔ LoadAdmits n := by
  refine resolves_integer_bind h ?_ (by rw [bound_eq, LoadAdmits]; omega)
  rw [resolves_ite, LoadAdmits]
  simp only [Nat.pow_eq]
  omega

theorem resolves_memory {base : Nat} (h : IsOffset operand n base)
    {f : Register → BitVec 12 → Except Fault β} (hf : ∀ r field, Resolves (f r field)) :
    Resolves (Operand.memory operand >>= fun m ↦ Operand.signed 12 m.1 >>= f m.2) ↔
      -2048 ≤ n ∧ n ≤ 2047 := by
  obtain ⟨before, inner, htext, hinteger, r, hr, -⟩ := h
  obtain ⟨hne, hplain⟩ := isPlain_of_isLiteral hinteger
  have hbefore : '(' ∉ before := fun hmem ↦
    absurd (hplain _ (Text.mem_trim hmem (by decide))) (by decide)
  have hmemory : Operand.memory operand =
      Operand.integer (String.ofList (Text.trim before)) >>= fun v ↦ pure (v, r) := by
    rw [Operand.memory]
    simp only [Text.cutAt?_eq_some.2 ⟨htext, hbefore⟩, Text.dropLast?_eq_some.2 rfl,
      List.isEmpty_iff, hne, if_false, register_eq_ok.2 hr, ok_bind]
  have htrim : IsInteger (String.ofList (Text.trim before)) n := by
    rwa [IsInteger, String.toList_ofList, Text.trim_trim]
  have hsame : (Operand.memory operand >>= fun m ↦ Operand.signed 12 m.1 >>= f m.2) =
      Operand.integer (String.ofList (Text.trim before)) >>= fun v ↦
        Operand.signed 12 v >>= f r := by
    rw [hmemory]
    cases Operand.integer (String.ofList (Text.trim before)) <;> rfl
  rw [hsame]
  exact resolves_immediate htrim (hf r)

/-- A target says a distance, or a distance that is too large to be read. -/
def SaysDistance (labels : Labels) (address : Word) (operand : String) (n : Int) : Prop :=
  Operand.distance labels address operand = .ok n ∨
    Literal.bound ≤ n.natAbs ∧ ¬ Resolves (Operand.distance labels address operand)

theorem resolves_target {labels : Labels} {address : Word} {bits : Nat} (hbits : bits < 63)
    (h : SaysDistance labels address operand n) :
    Resolves (Operand.target bits labels address operand) ↔
      n % 2 = 0 ∧ -2 ^ bits ≤ n ∧ n ≤ 2 ^ bits - 1 := by
  rw [Operand.target]
  rcases h with h | ⟨hlarge, h⟩
  · rw [h]
    show Resolves (if n % 2 ≠ 0 then _ else _) ↔ _
    split
    · next hodd => exact iff_of_false (not_resolves_error _) fun hn ↦ hodd hn.1
    · next heven =>
      rw [resolves_bind fun _ ↦ resolves_pure _, resolves_signed, Nat.add_sub_cancel,
        and_iff_right (not_not.1 heven)]
  · refine iff_of_false (fun ⟨a, ha⟩ ↦ ?_) fun hn ↦ ?_
    · obtain ⟨offset, hoffset, -⟩ := bind_eq_ok.1 ha
      exact h ⟨offset, hoffset⟩
    · have hpow : (2 : Int) ^ bits ≤ 2 ^ 62 := pow_le_pow_right₀ (by decide) (by omega)
      rw [bound_eq] at hlarge
      omega

end Fields

/-! ## Statements -/

/-- **Operands with a number make up an instruction exactly if its format admits the number.** -/
theorem resolves_baseInstruction {labels : Labels} {address : Word}
    {IsTarget : String → Int → Prop}
    (htarget : ∀ t n, IsTarget t n → SaysDistance labels address t n) {b : Base}
    {operands : List String} {n : Int} (h : Takes IsTarget b.format operands n) :
    Resolves (Statement.baseInstruction labels address operands b) ↔ b.format.Admits n := by
  cases b with
  | register op => cases h
  | fence => cases h
  | system op => cases h
  | immediate op =>
    cases h with
    | immediate hd ha hv =>
      obtain ⟨rd, hd, -⟩ := hd
      obtain ⟨rs1, ha, -⟩ := ha
      simp only [Statement.baseInstruction, register_eq_ok.2 hd, register_eq_ok.2 ha, ok_bind]
      exact resolves_immediate hv fun _ ↦ resolves_pure _
  | shift op =>
    cases h with
    | shift hd ha hv =>
      obtain ⟨rd, hd, -⟩ := hd
      obtain ⟨rs1, ha, -⟩ := ha
      simp only [Statement.baseInstruction, register_eq_ok.2 hd, register_eq_ok.2 ha, ok_bind]
      exact (resolves_bind fun _ ↦ resolves_pure _).trans (resolves_shiftAmount hv)
  | load op =>
    cases h with
    | load hd hm =>
      obtain ⟨rd, hd, -⟩ := hd
      simp only [Statement.baseInstruction, register_eq_ok.2 hd, ok_bind]
      exact resolves_memory hm fun _ _ ↦ resolves_pure _
  | store op =>
    cases h with
    | store hs hm =>
      obtain ⟨source, hs, -⟩ := hs
      simp only [Statement.baseInstruction, register_eq_ok.2 hs, ok_bind]
      exact resolves_memory hm fun _ _ ↦ resolves_pure _
  | branch op =>
    cases h with
    | branch ha hb ht =>
      obtain ⟨rs1, ha, -⟩ := ha
      obtain ⟨rs2, hb, -⟩ := hb
      simp only [Statement.baseInstruction, register_eq_ok.2 ha, register_eq_ok.2 hb, ok_bind]
      refine (resolves_bind fun _ ↦ resolves_pure _).trans
        ((resolves_target (by decide) (htarget _ _ ht)).trans ?_)
      simp only [Base.format, Format.Admits]
      omega
  | upper op =>
    cases h with
    | upper hd hv =>
      obtain ⟨rd, hd, -⟩ := hd
      simp only [Statement.baseInstruction, register_eq_ok.2 hd, ok_bind]
      exact (resolves_bind fun _ ↦ resolves_pure _).trans (resolves_upper hv)
  | jal =>
    have hrange : n % 2 = 0 ∧ -2 ^ 20 ≤ n ∧ n ≤ 2 ^ 20 - 1 ↔ Format.Admits .jal n := by
      rw [Format.Admits]
      omega
    cases h with
    | jal hd ht =>
      obtain ⟨rd, hd, -⟩ := hd
      simp only [Statement.baseInstruction, register_eq_ok.2 hd, ok_bind]
      exact (resolves_bind fun _ ↦ resolves_pure _).trans
        ((resolves_target (by decide) (htarget _ _ ht)).trans hrange)
    | call ht =>
      exact (resolves_bind fun _ ↦ resolves_pure _).trans
        ((resolves_target (by decide) (htarget _ _ ht)).trans hrange)
  | jalr =>
    cases h with
    | jalr hd ha hv =>
      obtain ⟨rd, hd, -⟩ := hd
      obtain ⟨rs1, ha, -⟩ := ha
      simp only [Statement.baseInstruction, register_eq_ok.2 hd, register_eq_ok.2 ha, ok_bind]
      exact resolves_immediate hv fun _ ↦ resolves_pure _
    | @jalrOffset d m _ _ _ hd hm =>
      have hparenthesis : m.toList.contains '(' = true := by
        obtain ⟨before, inner, htext, -⟩ := hm
        refine List.contains_iff_mem.2 ((Text.trim_isInfix _).mem ?_)
        rw [htext]
        exact List.mem_append_right _ List.mem_cons_self
      obtain ⟨rd, hd, -⟩ := hd
      simp only [Statement.baseInstruction, hparenthesis, if_true, register_eq_ok.2 hd, ok_bind]
      exact resolves_memory hm fun _ _ ↦ resolves_pure _

/-- The operands of a statement with a number for a field, and the range of the field. -/
inductive HasNumber (IsTarget : String → Int → Prop) : Written → (Int → Prop) → Int → Prop
  | base {name : String} {format : Format} {operands : List String} {n : Int}
      (hname : (name, format) ∈ formats) (h : Takes IsTarget format operands n) :
      HasNumber IsTarget ⟨name, operands⟩ format.Admits n
  | load {d v : String} {rd : Nat} {n : Int} (hd : NamesRegister d rd) (hv : IsInteger v n) :
      HasNumber IsTarget ⟨Mnemonic.loadName, [d, v]⟩ LoadAdmits n

section Statements

variable {labels : Labels} {address : Word} {IsTarget : String → Int → Prop} {written : Written}
  {range : Int → Prop} {n : Int}

theorem resolves_loadInstructions {d v : String} {rd : Nat} (hd : NamesRegister d rd)
    (hv : IsInteger v n) : Resolves (Statement.loadInstructions [d, v]) ↔ LoadAdmits n := by
  obtain ⟨r, hr, -⟩ := hd
  rw [Statement.loadInstructions, resolves_bind fun _ ↦ resolves_pure _, Statement.loadOperands,
    register_eq_ok.2 hr, ok_bind, resolves_bind fun _ ↦ resolves_pure _, resolves_constant hv]

/-- **A statement with a number is resolved exactly if the number is in range.** -/
theorem HasNumber.resolves_instructions (h : HasNumber IsTarget written range n)
    (htarget : ∀ t n, IsTarget t n → SaysDistance labels address t n) (line : Nat) :
    Resolves ((written.statement line).instructions labels address) ↔ range n := by
  cases h with
  | base hname h =>
    obtain ⟨b, hb, rfl⟩ := lookup_baseNames_of_mem hname
    rw [Written.statement, instructions_base labels address line (by rw [Mnemonic.ofName?, hb]),
      resolves_bind fun _ ↦ resolves_pure _]
    exact resolves_baseInstruction htarget h
  | load hd hv =>
    rw [Statement.instructions, Written.statement]
    simp only [ofName?_loadName]
    exact resolves_loadInstructions hd hv

/-- The size of a statement is known where the statement can be resolved. -/
theorem HasNumber.resolves_size (h : HasNumber IsTarget written range n) (hn : range n)
    (line : Nat) : Resolves (written.statement line).size := by
  cases h with
  | base hname h =>
    have hall : ∀ entry ∈ formats,
        entry.1 ≠ Mnemonic.loadName ∧ Mnemonic.isKnown entry.1 = true := by
      decide
    obtain ⟨hload, hknown⟩ := hall _ hname
    rw [Statement.size, Written.statement, if_neg hload, if_pos hknown]
    exact resolves_pure 1
  | load hd hv =>
    rw [Statement.size, Written.statement, if_pos rfl, resolves_bind fun _ ↦ resolves_pure _]
    exact (resolves_loadInstructions hd hv).2 hn

end Statements

/-! ## Targets -/

theorem saysDistance_of_isInteger {operand : String} {n : Int} (address : Word)
    (h : IsInteger operand n) : SaysDistance [] address operand n := by
  rw [SaysDistance, Operand.distance, Operand.integer, h.read?_eq]
  by_cases hsmall : n.natAbs < Literal.bound
  · rw [if_pos hsmall]
    exact .inl rfl
  · rw [if_neg hsmall]
    refine .inr ⟨Nat.not_lt.1 hsmall, ?_⟩
    dsimp only
    split <;> exact not_resolves_error _

theorem saysDistance_of_isLabelAt {labels : Labels} {address : Word} {operand : String} {n : Int}
    (hname : ∀ name a, labels.lookup name = some a → isIdentifier name.toList = true)
    (h : IsLabelAt labels address operand n) : SaysDistance labels address operand n := by
  obtain ⟨hliteral, a, ha, rfl⟩ := h
  refine .inl ?_
  rw [Operand.distance, Operand.integer, hliteral]
  simp only [hname _ _ ha, if_true, ha]

/-- **The labels of a layout are identifiers.** -/
theorem Laid.isIdentifier_of_lookup {line : Nat} {address : Word} {labels : Labels}
    {lines : List (List Char)} {layout : Layout} (h : Laid line address labels lines layout)
    (hlabels : ∀ name a, labels.lookup name = some a → isIdentifier name.toList = true)
    {name : String} {a : Word} (ha : layout.labels.lookup name = some a) :
    isIdentifier name.toList = true := by
  have hdeclared : ∀ {labels labels' : Labels} {names : List String} {text : List Char}
      {instruction : Option Written} {address : Word},
      (∀ name a, labels.lookup name = some a → isIdentifier name.toList = true) →
      Line.read text = .ok ⟨names, instruction⟩ → declare address labels names = .ok labels' →
        ∀ name a, labels'.lookup name = some a → isIdentifier name.toList = true := by
    intro labels labels' names text instruction address hlabels hread hdeclare name a ha
    rcases (lookup_declare hdeclare).1 ha with ha | ⟨hmem, -⟩
    · exact hlabels name a ha
    · exact isIdentifier_of_mem_labelsOn (by rw [labelsOn, hread]; exact hmem)
  induction h with
  | nil => exact hlabels name a ha
  | blank hread hdeclare _ ih => exact ih (hdeclared hlabels hread hdeclare) ha
  | statement hread hdeclare _ _ ih => exact ih (hdeclared hlabels hread hdeclare) ha

/-! ## Writing such a statement -/

/-- A text of plain characters is an operand, and no label ends in front of it. -/
theorem IsPlain.isOperand {s : List Char} (h : IsPlain s) (hne : s ≠ []) (htrim : Text.trim s = s)
    (hnewline : '\n' ∉ s) : IsOperand s ∧ s.head? ≠ some ':' := by
  have hno : ∀ mark ∈ [',', '#', ';', '/', ':'], mark ∉ s := by
    intro mark hmark hmem
    have hplain : ∀ mark ∈ [',', '#', ';', '/', ':'], ¬ (isIdentifierPart mark = true ∨
        mark ∈ ['+', '-', '(', ')'] ∨ Text.isBlank mark = true) :=
      List.forall_iff_forall_mem.1 (by decide)
    exact hplain mark hmark (h mark hmem)
  obtain ⟨hhead, hlast⟩ := Text.trim_eq_self_iff.1 htrim
  refine ⟨{
    ne_nil := hne
    last := hlast
    newline := hnewline
    unmarked := unmarked_of_forall fun c hc ↦ ⟨?_, ?_, ?_⟩
    head := hhead
    comma := hno ',' (by decide) }, fun hcolon ↦ hno ':' (by decide) (List.mem_of_head? hcolon)⟩
  all_goals
    rintro rfl
    exact hno _ (by decide) hc

theorem Register.plain_of_spelling {name : List Char} {n : Nat}
    (h : IsSpelling name n ∨ IsSignedSpelling name n) :
    name ≠ [] ∧ ∀ c ∈ name, isIdentifierPart c = true ∨ c = '+' := by
  rcases h with h | ⟨-, zeros, rfl⟩
  · cases h with
    | number hn =>
      refine ⟨List.cons_ne_nil _ _, List.forall_mem_cons.2 ⟨.inl (by decide), fun c hc ↦ ?_⟩⟩
      exact .inl (isIdentifierPart_of_mem_write hc).1
    | conventional h =>
      have hall : ∀ entry ∈ conventional,
          entry.1 ≠ [] ∧ entry.1.all isIdentifierPart = true := by decide +kernel
      exact ⟨(hall _ h).1, fun c hc ↦ .inl (List.all_eq_true.1 (hall _ h).2 c hc)⟩
  · refine ⟨List.cons_ne_nil _ _, List.forall_mem_cons.2
      ⟨.inl (by decide), List.forall_mem_cons.2 ⟨.inr rfl, fun c hc ↦ .inl ?_⟩⟩⟩
    rcases List.mem_append.1 hc with hc | hc
    · rw [List.eq_of_mem_replicate hc]
      decide
    · exact (isIdentifierPart_of_mem_write hc).1

theorem plain_of_namesRegister {operand : String} {number : Nat}
    (h : NamesRegister operand number) : operand.toList ≠ [] ∧ IsPlain operand.toList := by
  obtain ⟨r, hr, -⟩ := h
  obtain ⟨hne, hplain⟩ := Register.plain_of_spelling (Register.read?_eq_some.1 hr)
  refine ⟨fun hnil ↦ hne (by rw [Register.nameIn, hnil]; rfl), isPlain_of_trim fun c hc ↦ ?_⟩
  rcases hplain c.toLower (List.mem_map_of_mem hc) with hpart | hplus
  · exact .inl (isIdentifierPart_of_toLower hpart)
  · rcases toLower_eq_self_or_isUpper c with hself | hupper
    · rw [← hself, hplus]
      exact .inr (.inl (by decide))
    · have halpha : c.isAlpha = true := Bool.or_eq_true_iff.2 (.inl hupper)
      exact .inl (by simp [isIdentifierPart, Char.isAlphanum, halpha])

theorem plain_of_isInteger {operand : String} {n : Int} (h : IsInteger operand n) :
    operand.toList ≠ [] ∧ IsPlain operand.toList := by
  obtain ⟨hne, hplain⟩ := isPlain_of_isLiteral h
  refine ⟨fun hnil ↦ hne (by rw [hnil]; rfl), isPlain_of_trim fun c hc ↦ ?_⟩
  rcases hplain c hc with hc | rfl | rfl
  · exact .inl hc
  · exact .inr (.inl (by decide))
  · exact .inr (.inl (by decide))

theorem plain_of_isOffset {operand : String} {n : Int} {base : Nat} (h : IsOffset operand n base) :
    operand.toList ≠ [] ∧ IsPlain operand.toList := by
  obtain ⟨before, inner, htext, hinteger, hbase⟩ := h
  have hbefore : IsPlain before := by
    have hplain : IsInteger (String.ofList before) n := by rwa [IsInteger, String.toList_ofList]
    have := (plain_of_isInteger hplain).2
    rwa [String.toList_ofList] at this
  have hinner : IsPlain inner := by
    have := (plain_of_namesRegister hbase).2
    rwa [String.toList_ofList] at this
  have hparentheses : IsPlain ['('] ∧ IsPlain [')'] := by
    constructor <;> exact List.forall_mem_singleton.2 (.inr (.inl (by decide)))
  refine ⟨fun hnil ↦ absurd htext (by rw [hnil]; simp [Text.trim, Text.trimEnd, Text.trimStart]),
    isPlain_of_trim ?_⟩
  rw [htext]
  exact hbefore.append (hparentheses.1.append (hinner.append hparentheses.2))

/-- The operands of a statement with a number are plain. -/
theorem HasNumber.plain {written : Written} {range : Int → Prop} {n : Int}
    (h : HasNumber IsInteger written range n) :
    ∀ o ∈ written.operands, o.toList ≠ [] ∧ IsPlain o.toList := by
  simp only [← List.forall_iff_forall_mem]
  cases h with
  | load hd hv => exact ⟨plain_of_namesRegister hd, plain_of_isInteger hv⟩
  | base _ h =>
    cases h with
    | immediate hd ha hv | shift hd ha hv | branch hd ha hv | jalr hd ha hv =>
      exact ⟨plain_of_namesRegister hd, plain_of_namesRegister ha, plain_of_isInteger hv⟩
    | load hd hm | store hd hm | jalrOffset hd hm =>
      exact ⟨plain_of_namesRegister hd, plain_of_isOffset hm⟩
    | upper hd hv | jal hd hv => exact ⟨plain_of_namesRegister hd, plain_of_isInteger hv⟩
    | call hv => exact plain_of_isInteger hv

theorem HasNumber.isName {IsTarget : String → Int → Prop} {written : Written}
    {range : Int → Prop} {n : Int} (h : HasNumber IsTarget written range n) :
    IsName written.name.toList := by
  cases h with
  | base hname _ =>
    have hall : ∀ entry ∈ formats, IsName entry.1.toList := by decide
    exact hall _ hname
  | load => exact (by decide : IsName Mnemonic.loadName.toList)

/-- **A statement with a number can be written on a line**, whatever registers and literals it is
written with. -/
theorem HasNumber.spell {written : Written} {range : Int → Prop} {n : Int}
    (h : HasNumber IsInteger written range n)
    (htrim : ∀ o ∈ written.operands, Text.trim o.toList = o.toList ∧ '\n' ∉ o.toList) :
    '\n' ∉ Line.spell written [] ∧ Line.read (Line.spell written []) = .ok ⟨[], some written⟩ := by
  have hoperand : ∀ o ∈ written.operands, IsOperand o.toList ∧ o.toList.head? ≠ some ':' := by
    intro o ho
    obtain ⟨hne, hplain⟩ := h.plain o ho
    exact hplain.isOperand hne (htrim o ho).1 (htrim o ho).2
  have hspellable : written.IsSpellable := {
    name := h.isName
    operands := fun o ho ↦ (hoperand o ho).1
    colon := fun o ho ↦ (hoperand o (List.mem_of_head? ho)).2 }
  exact ⟨(legible_spell hspellable (List.forall_mem_nil _)).newline,
    read_spell hspellable (List.forall_mem_nil _)⟩

/-! ## Whole source texts -/

theorem resolves_onLine {α : Type} (line : Nat) {x : Except Fault α} {P : Prop}
    (h : Resolves x ↔ P) : (P → ∃ a, onLine line x = .ok a) ∧
      (¬ P → ∃ fault, onLine line x = .error ⟨line, fault⟩) := by
  cases x with
  | error fault =>
    refine ⟨fun hp ↦ ?_, fun _ ↦ ⟨fault, rfl⟩⟩
    exact absurd (h.2 hp) (not_resolves_error fault)
  | ok a => exact ⟨fun _ ↦ ⟨a, rfl⟩, fun hp ↦ absurd (h.1 ⟨a, rfl⟩) hp⟩

/-- A program that is one statement with a number. -/
theorem HasNumber.assemble_line {text : List Char} {written : Written} {range : Int → Prop}
    {n : Int} (h : HasNumber IsInteger written range n) (hnewline : '\n' ∉ text)
    (hread : Line.read text = .ok ⟨[], some written⟩) :
    (range n → ∃ words, assemble (String.ofList text) = .ok words) ∧
      (¬ range n → ∃ fault, assemble (String.ofList text) = .error ⟨1, fault⟩) := by
  have hinstructions := h.resolves_instructions
    (fun _ _ ↦ saysDistance_of_isInteger (0 : Word)) 1
  rw [Assembly.assemble_line hnewline hread]
  refine resolves_onLine 1 ⟨fun ⟨words, hwords⟩ ↦ ?_, fun hn ↦ ?_⟩
  · obtain ⟨size, -, hwords⟩ := bind_eq_ok.1 hwords
    obtain ⟨resolved, hresolved, -⟩ := map_eq_ok.1 hwords
    exact hinstructions.1 ⟨resolved, hresolved⟩
  · obtain ⟨size, hsize⟩ := h.resolves_size hn 1
    obtain ⟨resolved, hresolved⟩ := hinstructions.2 hn
    exact ⟨_, bind_eq_ok.2 ⟨size, hsize, map_eq_ok.2 ⟨resolved, hresolved, rfl⟩⟩⟩

/-- A statement with a number in a program that was laid out, where the number may be the distance
to a label. -/
theorem HasNumber.wordsOf {source : String} {layout : Layout}
    (hlayout : Layout.ofSource source = .ok layout) {p : Placed} {range : Int → Prop} {n : Int}
    (h : HasNumber (IsLabelAt layout.labels p.address) ⟨p.statement.name, p.statement.operands⟩
      range n) :
    (range n → ∃ words, layout.wordsOf p = .ok words) ∧
      (¬ range n → ∃ fault, layout.wordsOf p = .error ⟨p.statement.line, fault⟩) := by
  have hidentifier : ∀ name a, layout.labels.lookup name = some a →
      isIdentifier name.toList = true := fun _ _ ↦
    (laid_of_ofLines hlayout).isIdentifier_of_lookup (fun _ _ h ↦ nomatch h)
  have hinstructions := h.resolves_instructions
    (fun _ _ ↦ saysDistance_of_isLabelAt hidentifier) p.statement.line
  exact resolves_onLine p.statement.line
    ((resolves_bind fun _ ↦ resolves_pure _).trans hinstructions)

/-- The words of a layout are those of its statements, so there are none if one of them is
refused, and they are refused as that one if all others are resolved. -/
theorem words_of_wordsOf {layout : Layout} {p : Placed} (hp : p ∈ layout.placed) :
    (∀ failure, layout.wordsOf p = .error failure → ∃ failure, layout.words = .error failure) ∧
      ((∀ q ∈ layout.placed, q ≠ p → ∃ words, layout.wordsOf q = .ok words) →
        ((∃ words, layout.wordsOf p = .ok words) → ∃ words, layout.words = .ok words) ∧
        ∀ failure, layout.wordsOf p = .error failure → layout.words = .error failure) := by
  cases hwords : layout.words with
  | ok words =>
    obtain ⟨chunk, hchunk⟩ : ∃ chunk, layout.wordsOf p = .ok chunk := by
      obtain ⟨pairs, he, -⟩ := exists_emitted hwords
      rw [← he.placed] at hp
      obtain ⟨pair, hpair, rfl⟩ := List.mem_map.1 hp
      exact ⟨pair.2, he.wordsOf pair hpair⟩
    refine ⟨fun _ h ↦ (nomatch h.symm.trans hchunk), fun _ ↦ ⟨fun _ ↦ ⟨words, rfl⟩, ?_⟩⟩
    exact fun _ h ↦ nomatch h.symm.trans hchunk
  | error failure =>
    obtain ⟨q, hq, hfailure⟩ := exists_of_words_eq_error hwords
    refine ⟨fun _ _ ↦ ⟨failure, rfl⟩, fun hothers ↦ ?_⟩
    obtain rfl : q = p := by
      by_contra hne
      obtain ⟨words, hok⟩ := hothers q hq hne
      exact nomatch hfailure.symm.trans hok
    refine ⟨fun ⟨_, h⟩ ↦ (nomatch hfailure.symm.trans h), fun _ h ↦ ?_⟩
    exact hfailure.symm.trans h

/-- **The ranges of immediates and targets are exact.**  A program that is one statement with a
number, whatever registers and literals its operands are, is accepted if the number is in the range
of the statement's format, and is refused at its line if it is not; and whatever they are, there is
such a program.  In a program that was laid out, the target of a branch or a jump may be a label,
and its distance from the statement is the number: if that is not in the range then the program is
refused, and if all its other statements are resolved then it is accepted for a number in the range,
and is refused at the line of the statement for any other. -/
theorem ranges_exact :
    (∀ text written range n, '\n' ∉ text → Line.read text = .ok ⟨[], some written⟩ →
      HasNumber IsInteger written range n →
        (range n → ∃ words, assemble (String.ofList text) = .ok words) ∧
        (¬ range n → ∃ fault, assemble (String.ofList text) = .error ⟨1, fault⟩)) ∧
    (∀ written range n, HasNumber IsInteger written range n →
      (∀ o ∈ written.operands, Text.trim o.toList = o.toList ∧ '\n' ∉ o.toList) →
        '\n' ∉ Line.spell written [] ∧
        Line.read (Line.spell written []) = .ok ⟨[], some written⟩) ∧
    ∀ source layout, Layout.ofSource source = .ok layout → ∀ p ∈ layout.placed, ∀ range n,
      HasNumber (IsLabelAt layout.labels p.address) ⟨p.statement.name, p.statement.operands⟩
        range n →
      (¬ range n → ∃ failure, assemble source = .error failure) ∧
      ((∀ q ∈ layout.placed, q ≠ p → ∃ words, layout.wordsOf q = .ok words) →
        (range n → ∃ words, assemble source = .ok words) ∧
        (¬ range n → ∃ fault, assemble source = .error ⟨p.statement.line, fault⟩)) := by
  refine ⟨fun _ _ _ _ hnewline hread h ↦ h.assemble_line hnewline hread,
    fun _ _ _ h htrim ↦ h.spell htrim, fun source layout hlayout p hp range n h ↦ ?_⟩
  have hassemble : assemble source = layout.words := by
    rw [assemble, hlayout]
    rfl
  obtain ⟨haccepted, hrefused⟩ := h.wordsOf hlayout
  obtain ⟨hany, hone⟩ := words_of_wordsOf hp
  rw [hassemble]
  refine ⟨fun hn ↦ ?_, fun hothers ↦ ⟨fun hn ↦ (hone hothers).1 (haccepted hn), fun hn ↦ ?_⟩⟩
  · obtain ⟨fault, hfault⟩ := hrefused hn
    exact hany _ hfault
  · obtain ⟨fault, hfault⟩ := hrefused hn
    exact ⟨fault, (hone hothers).2 _ hfault⟩

/-- The greatest distance and the one behind it, a literal that 64 bits cannot hold, and a label. -/
theorem ranges_exact_of_limits :
    (∃ words, assemble "beq a0, a1, 0xffe" = .ok words) ∧
      (∃ fault, assemble "beq a0, a1, 4096" = .error ⟨1, fault⟩) ∧
      (∃ fault, assemble "li a0, 99999999999999999999" = .error ⟨1, fault⟩) ∧
      Line.read (Line.spell ⟨"beq", ["a0", "a1", "4096"]⟩ []) =
        .ok ⟨[], some ⟨"beq", ["a0", "a1", "4096"]⟩⟩ ∧
      ∃ words, assemble "beq a0, a1, end\nend:" = .ok words := by
  obtain ⟨hlines, hspelled, hlabels⟩ := ranges_exact
  have ha0 : NamesRegister "a0" 10 := ⟨10, by decide +kernel, rfl⟩
  have ha1 : NamesRegister "a1" 11 := ⟨11, by decide +kernel, rfl⟩
  have hinside : IsInteger "0xffe" 4094 := (Literal.read?_eq_some_iff.1 (by decide +kernel)).1
  have houtside : IsInteger "4096" 4096 := (Literal.read?_eq_some_iff.1 (by decide +kernel)).1
  have hlarge : IsInteger "99999999999999999999" 99999999999999999999 := by
    have hspelled : Text.trim "99999999999999999999".toList =
        (Text.Numeral.integer 99999999999999999999).toList := by decide +kernel
    rw [IsInteger, hspelled]
    exact isLiteral_integer _
  have hbeq : ("beq", .branch 0b000) ∈ formats := by decide
  have hrefused : HasNumber IsInteger ⟨"beq", ["a0", "a1", "4096"]⟩ _ 4096 :=
    .base hbeq (.branch ha0 ha1 houtside)
  have hlayout : Layout.ofSource "beq a0, a1, end\nend:" =
      .ok ⟨[⟨0, ⟨1, "beq", ["a0", "a1", "end"]⟩⟩], [("end", 4)]⟩ := by decide +kernel
  have hlabel : IsLabelAt [("end", 4)] 0 "end" 4 := ⟨by decide +kernel, 4, by decide, by decide⟩
  refine ⟨(hlines "beq a0, a1, 0xffe".toList _ _ _ (by decide) (by decide +kernel)
      (.base hbeq (.branch ha0 ha1 hinside))).1 (by decide),
    (hlines "beq a0, a1, 4096".toList _ _ _ (by decide) (by decide +kernel) hrefused).2
      (by decide),
    (hlines "li a0, 99999999999999999999".toList _ _ _ (by decide) (by decide +kernel)
      (.load ha0 hlarge)).2 (by decide),
    (hspelled _ _ _ hrefused (by decide +kernel)).2, ?_⟩
  refine ((hlabels _ _ hlayout _ List.mem_cons_self _ _
    (.base hbeq (.branch ha0 ha1 hlabel))).2 fun q hq hne ↦ ?_).1 (by decide)
  exact absurd (List.mem_singleton.1 hq) hne

end Assembly
end FirmwareLane
