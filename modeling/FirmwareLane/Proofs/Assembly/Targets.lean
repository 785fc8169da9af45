import FirmwareLane.Proofs.Assembly.Denotation
import FirmwareLane.Proofs.Assembly.Layout
import FirmwareLane.Proofs.Text.Blank
import Mathlib.Data.List.Flatten

/-!
# Where branches lead

A branch or a jump may name a label, and its word then holds the distance from the statement to the
address of that label.  Whether an operand names a label is settled the other way round, though: it
is read as a literal first, and is a label only if it is no literal.  The two readings overlap,
because the underscores of a literal may stand in front of its digits: `_2` is an identifier, can be
declared as a label, and is the literal two.

## What is here

* `Statement.target?` is the operand that says where a statement branches or jumps to, and
  `exists_of_instructions` says that the offset of its word is what that operand says.
* `read?_identifier` tells which identifiers are literals.
* `label_targets_iff` is the statement about whole source texts: a branch to a label leads there
  unless the name of the label without its underscores is a numeral.
-/

set_option autoImplicit false
namespace FirmwareLane
namespace Assembly

open Outcome

/-! ## The operand that says where to go -/

/-- The names of the instructions that branch or jump by an offset.  The last of their operands says
where to. -/
def targetNames : List String :=
  ["jal", "j", "beq", "bne", "blt", "bge", "bltu", "bgeu", "beqz", "bnez", "blez", "bgez", "bltz",
   "bgtz", "bgt", "ble", "bgtu", "bleu"]

/-- The operand that says where a statement branches or jumps to, if it does. -/
def Statement.target? (statement : Statement) : Option String :=
  if statement.name ∈ targetNames then statement.operands.getLast? else none

/-- The offset of a branch or a jump. -/
def Operands.offset? : Operands → Option Int
  | .branch _ _ offset => some offset
  | .jump _ offset => some offset
  | _ => Option.none

/-- The offset of the branch or jump that a word stands for, if it stands for one. -/
def Word.offset? (w : Word) : Option Int := w.decode.bind fun decoded ↦ decoded.operands.offset?

/-- The last operand is the target at an offset from an address, and the instruction has that
offset. -/
def LeadsTo (labels : Labels) (address : Word) (operands : List String) (i : Instruction) : Prop :=
  ∃ operand offset, operands.getLast? = some operand ∧ i.operands.offset? = some offset ∧
    IsTarget labels address operand offset

/-- A base instruction that branches or jumps by an offset. -/
def Base.isTargeted : Base → Bool
  | .branch _ => true
  | .jal => true
  | _ => false

/-- A pseudo-instruction that branches or jumps by an offset. -/
def Pseudo.isTargeted : Pseudo → Bool
  | .j | .beqz | .bnez | .blez | .bgez | .bltz | .bgtz | .bgt | .ble | .bgtu | .bleu => true
  | _ => false

/-- A name of an instruction that branches or jumps by an offset. -/
def Mnemonic.isTargeted : Mnemonic → Bool
  | .base b => b.isTargeted
  | .pseudo p => p.isTargeted
  | .loadImmediate => false

theorem isTargeted_of_mem {name : String} (h : name ∈ targetNames) :
    ∃ m, Mnemonic.ofName? name = some m ∧ m.isTargeted = true := by
  have hall : ∀ name ∈ targetNames, (Mnemonic.ofName? name).any Mnemonic.isTargeted = true := by
    decide
  exact (Option.any_eq_true _ _).1 (hall name h)

section Instructions

variable {labels : Labels} {address : Word} {operands : List String} {i : Instruction}

/-! ### Base instructions -/

/-- The operands of a base instruction denote the offset that the last one of them says. -/
theorem leadsTo_of_denotes {b : Base} (hb : b.isTargeted = true)
    (h : Denotes labels address b.format operands i.operands) :
    LeadsTo labels address operands i := by
  generalize hformat : b.format = format at h
  generalize hoperands : i.operands = denoted at h
  cases h with
  | branch ha hb ht => exact ⟨_, _, rfl, congrArg Operands.offset? hoperands, ht⟩
  | jal hd ht => exact ⟨_, _, rfl, congrArg Operands.offset? hoperands, ht⟩
  | call ht => exact ⟨_, _, rfl, congrArg Operands.offset? hoperands, ht⟩
  | _ => cases b <;> simp [Base.format, Base.isTargeted] at hformat hb

/-! ### Pseudo-instructions -/

/-- A branch whose field was read from the last operand. -/
theorem leadsTo_of_target {operand : String} {op : BranchOp} {rs1 rs2 : Register}
    {field : BitVec 12} (hlast : operands.getLast? = some operand)
    (h : Operand.target 12 labels address operand = .ok field) :
    LeadsTo labels address operands (.branch op rs1 rs2 field) :=
  ⟨operand, _, hlast, rfl, isTarget_of_target (by decide) h⟩

theorem leadsTo_of_ofZeroTest {make : Register → BitVec 12 → Instruction}
    (hmake : ∀ r field, ∃ op rs1 rs2, make r field = .branch op rs1 rs2 field)
    (h : Statement.ofZeroTest labels address operands make = .ok i) :
    LeadsTo labels address operands i := by
  unfold Statement.ofZeroTest at h
  split at h
  · obtain ⟨tested, -, h⟩ := bind_eq_ok.1 h
    obtain ⟨field, hfield, h⟩ := bind_eq_ok.1 h
    obtain ⟨op, rs1, rs2, heq⟩ := hmake tested field
    rw [← pure_eq_ok.1 h, heq]
    exact leadsTo_of_target rfl hfield
  · cases h

theorem leadsTo_of_ofSwapped {op : BranchOp}
    (h : Statement.ofSwapped labels address operands op = .ok i) :
    LeadsTo labels address operands i := by
  unfold Statement.ofSwapped at h
  split at h
  · obtain ⟨field, hfield, h⟩ := bind_eq_ok.1 h
    obtain ⟨rs2, -, h⟩ := bind_eq_ok.1 h
    obtain ⟨rs1, -, h⟩ := bind_eq_ok.1 h
    rw [← pure_eq_ok.1 h]
    exact leadsTo_of_target rfl hfield
  · cases h

theorem leadsTo_of_pseudoInstruction {p : Pseudo} (hp : p.isTargeted = true)
    (h : Statement.pseudoInstruction labels address operands p = .ok i) :
    LeadsTo labels address operands i := by
  cases p <;> try cases hp
  all_goals simp only [Statement.pseudoInstruction] at h
  case j =>
    split at h
    · obtain ⟨field, hfield, h⟩ := bind_eq_ok.1 h
      rw [← pure_eq_ok.1 h]
      exact ⟨_, _, rfl, rfl, isTarget_of_target (by decide) hfield⟩
    · cases h
  case bgt | ble | bgtu | bleu => exact leadsTo_of_ofSwapped h
  all_goals exact leadsTo_of_ofZeroTest (fun _ _ ↦ ⟨_, _, _, rfl⟩) h

/-- **A statement that branches or jumps takes one word, with the offset that its target says.** -/
theorem exists_of_instructions {statement : Statement} {resolved : List Instruction}
    {operand : String} (h : statement.instructions labels address = .ok resolved)
    (htarget : statement.target? = some operand) :
    ∃ i offset, resolved = [i] ∧ i.operands.offset? = some offset ∧
      IsTarget labels address operand offset := by
  rw [Statement.target?] at htarget
  split at htarget
  · next hname =>
    obtain ⟨m, hm, htargeted⟩ := isTargeted_of_mem hname
    have hleads : ∃ i, resolved = [i] ∧ LeadsTo labels address statement.operands i := by
      rw [Statement.instructions, hm] at h
      cases m with
      | base b =>
        obtain ⟨i, hi, h⟩ := bind_eq_ok.1 h
        obtain ⟨-, hdenotes⟩ := denotes_of_baseInstruction hi
        exact ⟨i, (pure_eq_ok.1 h).symm, leadsTo_of_denotes htargeted hdenotes⟩
      | pseudo p =>
        obtain ⟨i, hi, h⟩ := bind_eq_ok.1 h
        exact ⟨i, (pure_eq_ok.1 h).symm, leadsTo_of_pseudoInstruction htargeted hi⟩
      | loadImmediate => cases htargeted
    obtain ⟨i, hresolved, last, offset, hlast, hoffset, ht⟩ := hleads
    obtain rfl : last = operand := Option.some.inj (hlast.symm.trans htarget)
    exact ⟨i, offset, hresolved, hoffset, ht⟩
  · cases htarget

end Instructions

/-- An offset is read back from the word of its instruction. -/
theorem offset?_encode {i : Instruction} {offset : Int} (h : i.operands.offset? = some offset) :
    Word.offset? i.encode = some offset := by
  have hnamed : ∃ name, i.base.format.mnemonic? = some name := by
    cases i with
    | branch op rs1 rs2 field => cases op <;> exact ⟨_, rfl⟩
    | jal rd field => exact ⟨_, rfl⟩
    | _ => cases h
  obtain ⟨name, hname⟩ := hnamed
  rw [Word.offset?, i.decode_encode, hname]
  exact h

/-! ## Identifiers that are literals -/

/-- The characters of an identifier are visible ones of the ASCII range. -/
theorem toNat_of_isIdentifierPart {c : Char} (h : isIdentifierPart c = true) :
    0x20 < c.toNat ∧ c.toNat < 0x80 := by
  have hkinds : (((((c.isUpper || c.isLower) || c.isDigit) || c == '_') || c == '.') || c == '$') =
      true := h
  simp only [Bool.or_eq_true, beq_iff_eq] at hkinds
  have hbetween : ∀ least greatest : Char, least.val ≤ c.val ∧ c.val ≤ greatest.val →
      least.toNat ≤ c.toNat ∧ c.toNat ≤ greatest.toNat := fun _ _ hle ↦
    ⟨UInt32.le_iff_toNat_le.1 hle.1, UInt32.le_iff_toNat_le.1 hle.2⟩
  rcases hkinds with (((((h | h) | h) | rfl) | rfl) | rfl)
  · have hA : 'A'.toNat = 65 := rfl
    have hZ : 'Z'.toNat = 90 := rfl
    have hrange := hbetween 'A' 'Z' (of_decide_eq_true h)
    omega
  · have ha : 'a'.toNat = 97 := rfl
    have hz : 'z'.toNat = 122 := rfl
    have hsides := Bool.and_eq_true_iff.1 h
    have hrange := hbetween 'a' 'z' ⟨of_decide_eq_true hsides.1, of_decide_eq_true hsides.2⟩
    omega
  · have h0 : '0'.toNat = 48 := rfl
    have h9 : '9'.toNat = 57 := rfl
    have hsides := Bool.and_eq_true_iff.1 h
    have hrange := hbetween '0' '9' ⟨of_decide_eq_true hsides.1, of_decide_eq_true hsides.2⟩
    omega
  all_goals decide

theorem isBlank_of_isIdentifierPart {c : Char} (h : isIdentifierPart c = true) :
    Text.isBlank c = false := by
  have hrange := toNat_of_isIdentifierPart h
  simp only [Text.isBlank, Bool.or_eq_false_iff, Bool.and_eq_false_iff, decide_eq_false_iff_not,
    beq_eq_false_iff_ne]
  omega

theorem isIdentifierPart_of_isIdentifierStart {c : Char} (h : isIdentifierStart c = true) :
    isIdentifierPart c = true := by
  simp only [isIdentifierStart, isIdentifierPart, Char.isAlphanum, Bool.or_eq_true] at h ⊢
  tauto

theorem isIdentifierPart_of_mem {name : List Char} (h : isIdentifier name = true) {c : Char}
    (hc : c ∈ name) : isIdentifierPart c = true := by
  cases name with
  | nil => cases hc
  | cons first rest =>
    rw [isIdentifier, Bool.and_eq_true, List.all_eq_true] at h
    rcases List.mem_cons.1 hc with rfl | hc
    · exact isIdentifierPart_of_isIdentifierStart h.1
    · exact h.2 c hc

/-- **An identifier is a literal if it is a decimal numeral when its underscores are left out.** -/
theorem read?_identifier {name : List Char} (h : isIdentifier name = true) :
    Literal.read? name =
      ((Text.Numeral.read? 10 (name.filter (· != '_'))).filter (· < Literal.bound)).map
        Int.ofNat := by
  rw [Literal.read?, Text.trim_eq_self fun c hc ↦
    isBlank_of_isIdentifierPart (isIdentifierPart_of_mem h hc)]
  cases name with
  | nil => cases h
  | cons c rest =>
    rw [isIdentifier, Bool.and_eq_true] at h
    -- a letter, an underscore, a point or a dollar sign begins no sign and no mark of a base
    have hminus : c ≠ '-' := by rintro rfl; exact absurd h.1 (by decide)
    have hplus : c ≠ '+' := by rintro rfl; exact absurd h.1 (by decide)
    have hzero : c ≠ '0' := by rintro rfl; exact absurd h.1 (by decide)
    have hsign : Literal.sign (c :: rest) = (false, c :: rest) := by
      unfold Literal.sign
      split <;> simp_all
    have hbase : Literal.base (c :: rest) = (10, c :: rest) := by
      unfold Literal.base
      split <;> simp_all
    simp only [Literal.value?, hsign, Literal.magnitude?, hbase]
    cases (Text.Numeral.read? 10 ((c :: rest).filter (· != '_'))).filter (· < Literal.bound) <;> rfl

/-! ## Declared labels -/

theorem isIdentifier_of_mem_peelLabels {s : List Char} {name : String}
    (h : name ∈ (peelLabels s).1) : isIdentifier name.toList = true := by
  fun_induction peelLabels s with
  | case1 s hcut => exact absurd h List.not_mem_nil
  | case2 s before after hcut first hfirst labels rest heq ih =>
    rcases List.mem_cons.1 h with rfl | h
    · rwa [String.toList_ofList]
    · exact ih (heq ▸ h)
  | case3 s before after hcut first hfirst => exact absurd h List.not_mem_nil

/-- Labels are identifiers. -/
theorem isIdentifier_of_mem_labelsOn {text : List Char} {name : String}
    (h : name ∈ labelsOn text) : isIdentifier name.toList = true := by
  rw [labelsOn] at h
  split at h
  · next line hread =>
    obtain ⟨instruction, -, hline⟩ := bind_eq_ok.1 hread
    rw [← pure_eq_ok.1 hline] at h
    exact isIdentifier_of_mem_peelLabels h
  · exact absurd h List.not_mem_nil

/-- A name is a numeral when its underscores are left out, and as a literal it stands for that
number. -/
def IsUnderscored (name : String) (n : Nat) : Prop :=
  Text.Numeral.read? 10 (name.toList.filter (· != '_')) = some n ∧ n < Literal.bound

theorem standsFor_identifier {name : String} (h : isIdentifier name.toList = true) {value : Int} :
    StandsFor name value ↔ ∃ n : Nat, IsUnderscored name n ∧ value = n := by
  rw [StandsFor, read?_identifier h, Option.map_eq_some_iff]
  refine exists_congr fun n ↦ and_congr ?_ eq_comm
  rw [IsUnderscored, Option.filter_eq_some_iff, decide_eq_true_eq]

/-- **A label is reached at the offset that its name says as a literal, and if it says none, at the
distance to the address of the label.** -/
theorem IsTarget.reaches_iff {labels : Labels} {address a : Word} {name : String} {offset : Int}
    (hname : isIdentifier name.toList = true) (ha : labels.lookup name = some a)
    (h : IsTarget labels address name offset) :
    (∀ n : Nat, IsUnderscored name n → offset = n) ∧
      ((address.toNat : Int) + offset = a.toNat ↔
        ∀ n : Nat, IsUnderscored name n → (address.toNat : Int) + n = a.toNat) := by
  rcases h with h | ⟨hnone, target, htarget, rfl⟩
  · obtain ⟨n, hn, rfl⟩ := (standsFor_identifier hname).1 h
    have hunique : ∀ k, IsUnderscored name k → n = k := fun k hk ↦
      Option.some.inj (hn.1.symm.trans hk.1)
    refine ⟨fun k hk ↦ congrArg _ (hunique k hk), fun heq k hk ↦ hunique k hk ▸ heq, ?_⟩
    exact fun hall ↦ hall n hn
  · have hliteral : ∀ n : Nat, ¬ IsUnderscored name n := by
      intro n hn
      have hstands : StandsFor name n := (standsFor_identifier hname).2 ⟨n, hn, rfl⟩
      exact nomatch Eq.trans (Eq.symm hnone) hstands
    obtain rfl : target = a := Option.some.inj (htarget.symm.trans ha)
    refine ⟨fun n hn ↦ absurd hn (hliteral n), fun _ n hn ↦ absurd hn (hliteral n), fun _ ↦ ?_⟩
    omega

/-! ## Whole source texts -/

theorem Accepted.length_wordsAbove_le {source : String} {words : List Word} {layout : Layout}
    {pairs : List (Placed × List Word)} (h : Accepted source words layout pairs) (line : Nat) :
    (wordsAbove line pairs).length ≤ words.length := by
  rw [h.words_eq, wordsAbove]
  exact (List.filter_sublist.flatMap _).length_le

/-- The word at the address of a statement that branches or jumps has the offset that its target
says. -/
theorem Accepted.exists_offset {source : String} {words : List Word} {layout : Layout}
    {pairs : List (Placed × List Word)} (h : Accepted source words layout pairs)
    (hfew : words.length < 2 ^ 30) {pair : Placed × List Word} (hpair : pair ∈ pairs)
    {operand : String} (htarget : pair.1.statement.target? = some operand) :
    ∃ word offset, words[pair.1.address.toNat / 4]? = some word ∧ word.offset? = some offset ∧
      IsTarget layout.labels pair.1.address operand offset := by
  obtain ⟨resolved, hresolved, hchunk⟩ :=
    bind_eq_ok.1 (onLine_eq_ok.1 (h.emitted.wordsOf pair hpair))
  obtain ⟨i, offset, rfl, hoffset, ht⟩ := exists_of_instructions hresolved htarget
  obtain ⟨behind, hbehind⟩ := h.prefix_drop hfew hpair
  refine ⟨i.encode, offset, ?_, offset?_encode hoffset, ht⟩
  rw [← Nat.add_zero (_ / 4), ← List.getElem?_drop, ← hbehind, ← pure_eq_ok.1 hchunk]
  rfl

/-- **A branch to a label leads to the label, unless the name of the label is a literal.**  In an
accepted program whose words an address reaches, a label has the address of the words above its
line, and the word of every statement that branches or jumps to it, from above or from below, has
the distance to that address as its offset.  The exception is a label whose name is a numeral when
its underscores are left out: the offset is then that number, and leads to the label only if that
happens to be the distance. -/
theorem label_targets_iff {source : String} {words : List Word}
    (h : assemble source = .ok words) (hfew : words.length < 2 ^ 30) :
    ∃ layout pairs, Layout.ofSource source = .ok layout ∧
      layout.placed.map (·.statement) = statementsOf source ∧
      Emitted layout pairs ∧ words = pairs.flatMap (·.2) ∧
      ∀ i text, (Text.lines source.toList)[i]? = some text → ∀ name ∈ labelsOn text,
        ∃ a, layout.labels.lookup name = some a ∧
          a.toNat = 4 * (wordsAbove (i + 1) pairs).length ∧
          ∀ p ∈ layout.placed, p.statement.target? = some name →
            p.address.toNat = 4 * (wordsAbove p.statement.line pairs).length ∧
            ∃ word offset, words[p.address.toNat / 4]? = some word ∧
              word.offset? = some offset ∧
              (∀ n : Nat, IsUnderscored name n → offset = n) ∧
              ((p.address.toNat : Int) + offset = a.toNat ↔
                ∀ n : Nat, IsUnderscored name n → (p.address.toNat : Int) + n = a.toNat) := by
  obtain ⟨layout, pairs, h⟩ := exists_accepted h
  refine ⟨layout, pairs, h.ofSource, h.laid.map_statement, h.emitted, h.words_eq, ?_⟩
  intro i text htext name hname
  have habove := h.length_wordsAbove_le (i + 1)
  have haddress : (BitVec.ofNat 32 (4 * (wordsAbove (i + 1) pairs).length)).toNat =
      4 * (wordsAbove (i + 1) pairs).length := by
    rw [BitVec.toNat_ofNat, Nat.mod_eq_of_lt (by omega)]
  have ha := (h.lookup_labels hfew name _).2 ⟨i, text, htext, hname, haddress⟩
  refine ⟨_, ha, haddress, fun p hp htarget ↦ ?_⟩
  rw [← h.emitted.placed] at hp
  obtain ⟨pair, hpair, rfl⟩ := List.mem_map.1 hp
  obtain ⟨word, offset, hword, hoffset, ht⟩ := h.exists_offset hfew hpair htarget
  exact ⟨h.toNat_address hfew hpair, word, offset, hword, hoffset,
    ht.reaches_iff (isIdentifier_of_mem_labelsOn hname) ha⟩

/-- Of the two jumps below, the one at address 8 leads on to its label at address 12, and the one at
address 4 leads to the middle of itself instead of back to its label at address 0. -/
theorem label_targets_iff_of_underscored :
    assemble "_2: nop\nj _2\nj to\nto: nop" = .ok [0x00000013, 0x0020006f, 0x0040006f, 0x00000013] ∧
      (0x0020006f : Word).offset? = some 2 ∧ (0x0040006f : Word).offset? = some 4 ∧
      ∃ layout, Layout.ofSource "_2: nop\nj _2\nj to\nto: nop" = .ok layout ∧
        layout.labels.lookup "_2" = some 0 ∧ layout.labels.lookup "to" = some 12 := by
  have hwords : assemble "_2: nop\nj _2\nj to\nto: nop" =
      .ok [0x00000013, 0x0020006f, 0x0040006f, 0x00000013] := by decide +kernel
  have hlayout : Layout.ofSource "_2: nop\nj _2\nj to\nto: nop" =
      .ok ⟨[⟨0, ⟨1, "nop", []⟩⟩, ⟨4, ⟨2, "j", ["_2"]⟩⟩, ⟨8, ⟨3, "j", ["to"]⟩⟩, ⟨12, ⟨4, "nop", []⟩⟩],
        [("to", 12), ("_2", 0)]⟩ := by decide +kernel
  obtain ⟨layout, pairs, heq, -, -, -, hlabels⟩ := label_targets_iff hwords (by decide)
  obtain rfl := Except.ok.inj (hlayout.symm.trans heq)
  obtain ⟨a, ha, -, hall⟩ := hlabels 0 "_2: nop".toList (by decide +kernel) "_2" (by decide +kernel)
  obtain ⟨-, word, offset, hword, hoffset, hliteral, -⟩ :=
    hall ⟨4, ⟨2, "j", ["_2"]⟩⟩ (by decide) (by decide)
  obtain ⟨b, hb, -, hall'⟩ := hlabels 3 "to: nop".toList (by decide +kernel) "to" (by decide +kernel)
  obtain ⟨-, word', offset', hword', hoffset', -, hreaches⟩ :=
    hall' ⟨8, ⟨3, "j", ["to"]⟩⟩ (by decide) (by decide)
  obtain rfl : (0x0020006f : Word) = word := Option.some.inj hword
  obtain rfl : offset = 2 := hliteral 2 ⟨by decide +kernel, by decide⟩
  obtain rfl : (0x0040006f : Word) = word' := Option.some.inj hword'
  obtain rfl : (12 : Word) = b := Option.some.inj hb
  have hnone : Text.Numeral.read? 10 ("to".toList.filter (· != '_')) = none := by decide +kernel
  have hdistance := hreaches.2 fun n hn ↦ nomatch hnone.symm.trans hn.1
  obtain rfl : offset' = 4 := by
    change (8 : Int) + offset' = 12 at hdistance
    omega
  exact ⟨hwords, hoffset, hoffset', _, hlayout, rfl, rfl⟩

end Assembly
end FirmwareLane
