import FirmwareLane.Assembly.Statement
import FirmwareLane.Keyed
import FirmwareLane.Proofs.Outcome

/-!
# The size of a statement

The size of a statement is known before any label has an address, and it is told from the name and
the operands alone.  Resolving the statement looks the name up again, in other tables, and may come
out differently at every address and under every table of labels.  Two facts tie the two together.

* `length_instructions`: whatever the labels and the address, a statement that is resolved takes as
  many words as its size said.
* `Named.instructions`: a statement that has a size is never refused for its name when it is
  resolved, since the two look-ups know the same names (`isSome_ofName?`).
-/

set_option autoImplicit false
namespace FirmwareLane
namespace Assembly

open Outcome

/-! ## The same names are known -/

theorem lookup_baseNames_loadName : Mnemonic.baseNames.lookup Mnemonic.loadName = none := by decide

/-- The names that have a size beside the base instructions are those that are resolved beside
them. -/
theorem mem_derivedNames_iff (name : String) :
    name ∈ Mnemonic.derivedNames ↔
      name = Mnemonic.loadName ∨ (Mnemonic.pseudoNames.lookup name).isSome := by
  constructor
  · intro h
    have hall : ∀ n ∈ Mnemonic.derivedNames,
        n = Mnemonic.loadName ∨ (Mnemonic.pseudoNames.lookup n).isSome := by decide
    exact hall name h
  · rintro (rfl | h)
    · decide
    · have hall : ∀ n ∈ Mnemonic.pseudoNames.map (·.1), n ∈ Mnemonic.derivedNames := by decide
      exact hall name (Keyed.isSome_lookup_iff.1 h)

/-- **Resolving a statement knows the names that sizing it knows.** -/
theorem isSome_ofName? (name : String) :
    (Mnemonic.ofName? name).isSome = Mnemonic.isKnown name := by
  rw [Bool.eq_iff_iff, Mnemonic.isKnown, Bool.or_eq_true, List.contains_iff_mem,
    mem_derivedNames_iff, Mnemonic.ofName?]
  cases hb : Mnemonic.baseNames.lookup name with
  | some b => simp
  | none =>
    by_cases hl : name = Mnemonic.loadName
    · simp [hl]
    · simp [hl]

namespace Statement

/-! ## Sizes and words -/

/-- **A statement takes as many words as its size says**, whatever labels it is resolved under and
wherever it stands. -/
theorem length_instructions {labels : Labels} {address : Word} {statement : Statement}
    {resolved : List Instruction}
    (h : statement.instructions labels address = .ok resolved) :
    statement.size = .ok resolved.length := by
  have hknown : Mnemonic.isKnown statement.name = true := by
    rw [← isSome_ofName?]
    cases hn : Mnemonic.ofName? statement.name with
    | none => simp [instructions, hn] at h
    | some m => rfl
  rw [size]
  by_cases hload : statement.name = Mnemonic.loadName
  · have hn : Mnemonic.ofName? statement.name = some .loadImmediate := by
      rw [hload, Mnemonic.ofName?, lookup_baseNames_loadName, if_pos rfl]
    rw [instructions, hn] at h
    rw [if_pos hload, bind_eq_ok]
    exact ⟨resolved, h, rfl⟩
  · rw [if_neg hload, if_pos hknown]
    -- any other name stands for one instruction
    have hone : ∃ i, resolved = [i] := by
      rw [instructions] at h
      split at h
      · next hn =>
        rw [Mnemonic.ofName?, if_neg hload] at hn
        split at hn
        · simp at hn
        · simp at hn
      · obtain ⟨i, -, hi⟩ := bind_eq_ok.1 h
        exact ⟨i, (pure_eq_ok.1 hi).symm⟩
      · obtain ⟨i, -, hi⟩ := bind_eq_ok.1 h
        exact ⟨i, (pure_eq_ok.1 hi).symm⟩
      · simp at h
    obtain ⟨i, rfl⟩ := hone
    rfl

theorem isKnown_of_size {statement : Statement} {n : Nat} (h : statement.size = .ok n) :
    Mnemonic.isKnown statement.name = true := by
  rw [size] at h
  split at h
  · next hload => rw [hload]; decide
  · split at h
    · assumption
    · simp at h

end Statement

/-! ## No operand is blamed on the name -/

/-- A computation does not fail for an unknown name. -/
def Named {α : Type} (x : Except Fault α) : Prop := ∀ name, x ≠ .error (.unknownMnemonic name)

namespace Named

variable {α β : Type}

theorem ok (a : α) : Named (.ok a) := fun _ h ↦ nomatch h

theorem bind {x : Except Fault α} {f : α → Except Fault β} (hx : Named x) (hf : ∀ a, Named (f a)) :
    Named (x >>= f) := by
  cases x with
  | error fault => exact fun name h ↦ hx name (congrArg Except.error (Except.error.inj h))
  | ok a => exact hf a

theorem miscounted (expected : Arity) (operands : List String) :
    Named (Statement.miscounted expected operands : Except Fault α) := fun _ h ↦ nomatch h

/-! ### Operands -/

theorem register (operand : String) : Named (Operand.register operand) := by
  intro name h
  rw [Operand.register] at h
  split at h <;> simp at h

theorem integer (operand : String) : Named (Operand.integer operand) := by
  intro name h
  rw [Operand.integer] at h
  split at h <;> simp at h

theorem signed (bits : Nat) (value : Int) : Named (Operand.signed bits value) := by
  intro name h
  rw [Operand.signed] at h
  split at h <;> simp at h

theorem shiftAmount (operand : String) : Named (Operand.shiftAmount operand) :=
  (integer operand).bind fun amount name h ↦ by split at h <;> simp at h

theorem upper (operand : String) : Named (Operand.upper operand) :=
  (integer operand).bind fun value name h ↦ by split at h <;> simp at h

theorem constant (operand : String) : Named (Operand.constant operand) :=
  (integer operand).bind fun value name h ↦ by split at h <;> simp at h

theorem memory (operand : String) : Named (Operand.memory operand) := by
  rw [Operand.memory]
  split
  · exact fun _ h ↦ nomatch h
  · split
    · exact fun _ h ↦ nomatch h
    · dsimp only
      split
      · exact (register _).bind fun base ↦ ok _
      · exact (integer _).bind fun offset ↦ (register _).bind fun base ↦ ok _

theorem distance (labels : Labels) (address : Word) (operand : String) :
    Named (Operand.distance labels address operand) := by
  have hi := integer operand
  intro name h
  rw [Operand.distance] at h
  split at h
  · simp at h
  · next fault hfault =>
    split at h
    · split at h <;> simp at h
    · exact hi name (hfault.trans (congrArg Except.error (Except.error.inj h)))

theorem target (bits : Nat) (labels : Labels) (address : Word) (operand : String) :
    Named (Operand.target bits labels address operand) := by
  refine (distance labels address operand).bind fun offset ↦ ?_
  split
  · exact fun _ h ↦ nomatch h
  · exact (signed _ offset).bind fun _ ↦ ok _

theorem fenceSet (operand : String) : Named (Operand.fenceSet operand) := by
  intro name h
  rw [Operand.fenceSet] at h
  split at h
  · simp at h
  · split at h <;> simp at h

/-! ### Statements -/

theorem baseInstruction (labels : Labels) (address : Word) (operands : List String) (b : Base) :
    Named (Statement.baseInstruction labels address operands b) := by
  -- one case per shape of operands; the last case of each is a wrong number of them
  cases b with
  | register op =>
    simp only [Statement.baseInstruction]
    split
    · exact (register _).bind fun _ ↦ (register _).bind fun _ ↦ (register _).bind fun _ ↦ ok _
    · exact miscounted _ _
  | immediate op =>
    simp only [Statement.baseInstruction]
    split
    · exact (integer _).bind fun _ ↦ (signed _ _).bind fun _ ↦ (register _).bind fun _ ↦
        (register _).bind fun _ ↦ ok _
    · exact miscounted _ _
  | shift op =>
    simp only [Statement.baseInstruction]
    split
    · exact (shiftAmount _).bind fun _ ↦ (register _).bind fun _ ↦ (register _).bind fun _ ↦ ok _
    · exact miscounted _ _
  | load op | store op =>
    simp only [Statement.baseInstruction]
    split
    · exact (memory _).bind fun _ ↦ (signed _ _).bind fun _ ↦ (register _).bind fun _ ↦ ok _
    · exact miscounted _ _
  | branch op =>
    simp only [Statement.baseInstruction]
    split
    · exact (target _ _ _ _).bind fun _ ↦ (register _).bind fun _ ↦ (register _).bind fun _ ↦ ok _
    · exact miscounted _ _
  | upper op =>
    simp only [Statement.baseInstruction]
    split
    · exact (upper _).bind fun _ ↦ (register _).bind fun _ ↦ ok _
    · exact miscounted _ _
  | jal =>
    simp only [Statement.baseInstruction]
    split
    · exact (target _ _ _ _).bind fun _ ↦ ok _
    · exact (register _).bind fun _ ↦ (target _ _ _ _).bind fun _ ↦ ok _
    · exact miscounted _ _
  | jalr =>
    simp only [Statement.baseInstruction]
    split
    · exact (register _).bind fun _ ↦ ok _
    · split
      · exact (memory _).bind fun _ ↦ (register _).bind fun _ ↦ (signed _ _).bind fun _ ↦ ok _
      · exact (register _).bind fun _ ↦ (register _).bind fun _ ↦ ok _
    · exact (register _).bind fun _ ↦ (register _).bind fun _ ↦ (integer _).bind fun _ ↦
        (signed _ _).bind fun _ ↦ ok _
    · exact miscounted _ _
  | fence =>
    simp only [Statement.baseInstruction]
    split
    · exact ok _
    · exact (fenceSet _).bind fun _ ↦ (fenceSet _).bind fun _ ↦ ok _
    · exact miscounted _ _
  | system op =>
    simp only [Statement.baseInstruction]
    split
    · exact ok _
    · exact miscounted _ _

theorem ofRegisters (operands : List String) (make : Register → Register → Instruction) :
    Named (Statement.ofRegisters operands make) := by
  unfold Statement.ofRegisters
  split
  · exact (register _).bind fun _ ↦ (register _).bind fun _ ↦ ok _
  · exact miscounted _ _

theorem ofZeroTest (labels : Labels) (address : Word) (operands : List String)
    (make : Register → BitVec 12 → Instruction) :
    Named (Statement.ofZeroTest labels address operands make) := by
  unfold Statement.ofZeroTest
  split
  · exact (register _).bind fun _ ↦ (target _ _ _ _).bind fun _ ↦ ok _
  · exact miscounted _ _

theorem ofSwapped (labels : Labels) (address : Word) (operands : List String) (op : BranchOp) :
    Named (Statement.ofSwapped labels address operands op) := by
  unfold Statement.ofSwapped
  split
  · exact (target _ _ _ _).bind fun _ ↦ (register _).bind fun _ ↦ (register _).bind fun _ ↦ ok _
  · exact miscounted _ _

theorem pseudoInstruction (labels : Labels) (address : Word) (operands : List String)
    (p : Pseudo) : Named (Statement.pseudoInstruction labels address operands p) := by
  cases p <;> simp only [Statement.pseudoInstruction]
  case nop | ret =>
    split
    · exact ok _
    · exact miscounted _ _
  case j =>
    split
    · exact (target _ _ _ _).bind fun _ ↦ ok _
    · exact miscounted _ _
  case jr =>
    split
    · exact (register _).bind fun _ ↦ ok _
    · exact miscounted _ _
  case mv | not | neg | seqz | snez | sltz | sgtz => exact ofRegisters _ _
  case beqz | bnez | blez | bgez | bltz | bgtz => exact ofZeroTest _ _ _ _
  case bgt | ble | bgtu | bleu => exact ofSwapped _ _ _ _

theorem loadInstructions (operands : List String) : Named (Statement.loadInstructions operands) := by
  refine bind ?_ fun _ ↦ ok _
  unfold Statement.loadOperands
  split
  · exact (register _).bind fun _ ↦ (constant _).bind fun _ ↦ ok _
  · exact miscounted _ _

/-- **A statement that has a size is not refused for its name**, whatever labels it is resolved
under and wherever it stands. -/
theorem instructions {statement : Statement} {n : Nat} (h : statement.size = .ok n)
    (labels : Labels) (address : Word) : Named (statement.instructions labels address) := by
  have hsome : (Mnemonic.ofName? statement.name).isSome := by
    rw [isSome_ofName?]
    exact Statement.isKnown_of_size h
  rw [Statement.instructions]
  cases hm : Mnemonic.ofName? statement.name with
  | none => simp [hm] at hsome
  | some m =>
    cases m with
    | base b => exact (baseInstruction _ _ _ b).bind fun _ ↦ ok _
    | pseudo p => exact (pseudoInstruction _ _ _ p).bind fun _ ↦ ok _
    | loadImmediate => exact loadInstructions _

end Named

end Assembly
end FirmwareLane
