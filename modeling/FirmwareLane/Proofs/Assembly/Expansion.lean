import FirmwareLane.Proofs.Assembly.Spelling

/-!
# Pseudo-instructions and what they stand for

A pseudo-instruction of one word is put together by hand, and beside the table of the base
instructions: which operand becomes which register, in which order they are compared, and where
register 0 stands, is written down once for each of them.  The manual of the instruction set defines
each of them as a base instruction with its operands.  This file says that the two are the same
statement wherever either may stand.

Only the fault may differ.  The operands of the two are read in different orders, so if two of them
are wrong, another one may be reported; but it is reported at the same line.

## What is here

* `Abbreviates` is the table of the manual.
* `Abbreviates.toOption_instructions`: the two resolve to the same instruction, or neither resolves,
  under all labels and at all addresses.
* `ofLines_alike` and `assemble_alike` take this through both passes over a program, line by line.
* `expansions_agree` is the statement about replacing a line of a source text.
-/

set_option autoImplicit false
namespace FirmwareLane
namespace Assembly

open Outcome

/-! ## The table of the manual -/

/-- A pseudo-instruction of one word, or a base instruction with operands left out, and the base
instruction that the manual defines it as.  The address of an indirect jump may be written in two
ways. -/
inductive Abbreviates : Written → Written → Prop
  | nop : Abbreviates ⟨"nop", []⟩ ⟨"addi", ["x0", "x0", "0"]⟩
  | mv (d s : String) : Abbreviates ⟨"mv", [d, s]⟩ ⟨"addi", [d, s, "0"]⟩
  | not (d s : String) : Abbreviates ⟨"not", [d, s]⟩ ⟨"xori", [d, s, "-1"]⟩
  | neg (d s : String) : Abbreviates ⟨"neg", [d, s]⟩ ⟨"sub", [d, "x0", s]⟩
  | seqz (d s : String) : Abbreviates ⟨"seqz", [d, s]⟩ ⟨"sltiu", [d, s, "1"]⟩
  | snez (d s : String) : Abbreviates ⟨"snez", [d, s]⟩ ⟨"sltu", [d, "x0", s]⟩
  | sltz (d s : String) : Abbreviates ⟨"sltz", [d, s]⟩ ⟨"slt", [d, s, "x0"]⟩
  | sgtz (d s : String) : Abbreviates ⟨"sgtz", [d, s]⟩ ⟨"slt", [d, "x0", s]⟩
  | j (t : String) : Abbreviates ⟨"j", [t]⟩ ⟨"jal", ["x0", t]⟩
  | jr (s : String) : Abbreviates ⟨"jr", [s]⟩ ⟨"jalr", ["x0", "0(" ++ s ++ ")"]⟩
  | jrOffset (s : String) : Abbreviates ⟨"jr", [s]⟩ ⟨"jalr", ["x0", s, "0"]⟩
  | ret : Abbreviates ⟨"ret", []⟩ ⟨"jalr", ["x0", "0(x1)"]⟩
  | retOffset : Abbreviates ⟨"ret", []⟩ ⟨"jalr", ["x0", "x1", "0"]⟩
  | beqz (s t : String) : Abbreviates ⟨"beqz", [s, t]⟩ ⟨"beq", [s, "x0", t]⟩
  | bnez (s t : String) : Abbreviates ⟨"bnez", [s, t]⟩ ⟨"bne", [s, "x0", t]⟩
  | blez (s t : String) : Abbreviates ⟨"blez", [s, t]⟩ ⟨"bge", ["x0", s, t]⟩
  | bgez (s t : String) : Abbreviates ⟨"bgez", [s, t]⟩ ⟨"bge", [s, "x0", t]⟩
  | bltz (s t : String) : Abbreviates ⟨"bltz", [s, t]⟩ ⟨"blt", [s, "x0", t]⟩
  | bgtz (s t : String) : Abbreviates ⟨"bgtz", [s, t]⟩ ⟨"blt", ["x0", s, t]⟩
  | bgt (a b t : String) : Abbreviates ⟨"bgt", [a, b, t]⟩ ⟨"blt", [b, a, t]⟩
  | ble (a b t : String) : Abbreviates ⟨"ble", [a, b, t]⟩ ⟨"bge", [b, a, t]⟩
  | bgtu (a b t : String) : Abbreviates ⟨"bgtu", [a, b, t]⟩ ⟨"bltu", [b, a, t]⟩
  | bleu (a b t : String) : Abbreviates ⟨"bleu", [a, b, t]⟩ ⟨"bgeu", [b, a, t]⟩
  | jal (t : String) : Abbreviates ⟨"jal", [t]⟩ ⟨"jal", ["x1", t]⟩
  | jalr (s : String) : Abbreviates ⟨"jalr", [s]⟩ ⟨"jalr", ["x1", "0(" ++ s ++ ")"]⟩
  | jalrOffset (s : String) : Abbreviates ⟨"jalr", [s]⟩ ⟨"jalr", ["x1", s, "0"]⟩
  | fence : Abbreviates ⟨"fence", []⟩ ⟨"fence", ["iorw", "iorw"]⟩

/-! ## The operands that the manual fills in -/

theorem register_x0 : Operand.register "x0" = .ok Register.zero := by decide +kernel

theorem register_x1 : Operand.register "x1" = .ok Register.returnAddress := by decide +kernel

theorem integer_zero : Operand.integer "0" = .ok 0 := by decide +kernel

theorem integer_one : Operand.integer "1" = .ok 1 := by decide +kernel

theorem integer_neg_one : Operand.integer "-1" = .ok (-1) := by decide +kernel

theorem signed_zero : Operand.signed 12 0 = .ok 0 := by decide

theorem signed_one : Operand.signed 12 1 = .ok 1 := by decide

theorem signed_neg_one : Operand.signed 12 (-1) = .ok (-1) := by decide

theorem fenceSet_iorw : Operand.fenceSet "iorw" = .ok 0b1111 := by decide +kernel

/-- A register in parentheses behind the offset zero. -/
theorem memory_zero (s : String) :
    Operand.memory ("0(" ++ s ++ ")") = Operand.register s >>= fun base ↦ pure (0, base) := by
  have hlist : ("0(" ++ s ++ ")").toList = '0' :: '(' :: (s.toList ++ [')']) := by simp
  have htrim : Text.trim ("0(" ++ s ++ ")").toList = '0' :: '(' :: (s.toList ++ [')']) := by
    rw [hlist, Text.trim_eq_self_iff]
    refine ⟨fun c hc ↦ ?_, fun c hc ↦ ?_⟩
    · rw [← Option.some.inj hc]
      decide
    · rw [← List.cons_append, ← List.cons_append, List.getLast?_concat] at hc
      rw [← Option.some.inj hc]
      decide
  have hcut : Text.cutAt? '(' ('0' :: '(' :: (s.toList ++ [')'])) = some (['0'], s.toList ++ [')']) :=
    Text.cutAt?_eq_some.2 ⟨rfl, by decide⟩
  have hdrop : Text.dropLast? ')' (s.toList ++ [')']) = some s.toList := Text.dropLast?_eq_some.2 rfl
  rw [Operand.memory, htrim]
  simp only [hcut, hdrop, String.ofList_toList]
  show (do let offset ← Operand.integer "0"; return (offset, ← Operand.register s)) = _
  rw [integer_zero]
  rfl

/-! ## Both resolve alike -/

section Resolving

variable (labels : Labels) (address : Word) (line : Nat)

theorem instructions_base {name : String} {b : Base}
    (h : Mnemonic.ofName? name = some (.base b)) (operands : List String) :
    Statement.instructions labels address ⟨line, name, operands⟩ =
      Statement.baseInstruction labels address operands b >>= fun i ↦ pure [i] := by
  rw [Statement.instructions, h]

theorem instructions_pseudo {name : String} {p : Pseudo}
    (h : Mnemonic.ofName? name = some (.pseudo p)) (operands : List String) :
    Statement.instructions labels address ⟨line, name, operands⟩ =
      Statement.pseudoInstruction labels address operands p >>= fun i ↦ pure [i] := by
  rw [Statement.instructions, h]

theorem toOption_pseudo {name name' : String} {b : Base} {p : Pseudo}
    {operands operands' : List String} (hp : Mnemonic.ofName? name = some (.pseudo p))
    (hb : Mnemonic.ofName? name' = some (.base b))
    (h : (Statement.baseInstruction labels address operands' b).toOption =
      (Statement.pseudoInstruction labels address operands p).toOption) :
    (Statement.instructions labels address ⟨line, name', operands'⟩).toOption =
      (Statement.instructions labels address ⟨line, name, operands⟩).toOption := by
  rw [instructions_base labels address line hb, instructions_pseudo labels address line hp,
    toOption_bind, toOption_bind, h]

/-- A base instruction with operands left out, and the same one with them. -/
theorem toOption_base {name : String} {b : Base} {operands operands' : List String}
    (hb : Mnemonic.ofName? name = some (.base b))
    (h : (Statement.baseInstruction labels address operands' b).toOption =
      (Statement.baseInstruction labels address operands b).toOption) :
    (Statement.instructions labels address ⟨line, name, operands'⟩).toOption =
      (Statement.instructions labels address ⟨line, name, operands⟩).toOption := by
  rw [instructions_base labels address line hb, instructions_base labels address line hb,
    toOption_bind, toOption_bind, h]

/-- An indirect jump to the address in a register, in the two ways to write it. -/
theorem baseInstruction_jalr {d : String} {rd : Register} (hd : Operand.register d = .ok rd)
    (s : String) :
    Statement.baseInstruction labels address [d, "0(" ++ s ++ ")"] .jalr =
        (Operand.register s >>= fun base ↦ pure (.jalr rd base 0)) ∧
      Statement.baseInstruction labels address [d, s, "0"] .jalr =
        (Operand.register s >>= fun base ↦ pure (.jalr rd base 0)) := by
  have hparenthesis : ("0(" ++ s ++ ")").toList.contains '(' = true := by simp
  constructor
  · simp only [Statement.baseInstruction, hparenthesis, if_true, memory_zero, hd]
    cases Operand.register s with
    | error fault => rfl
    | ok base =>
      show (do return Instruction.jalr rd base (← Operand.signed 12 0)) = _
      rw [signed_zero]
      rfl
  · simp only [Statement.baseInstruction, hd, integer_zero, signed_zero, ok_bind]

/-- **A pseudo-instruction and what it stands for resolve to the same instruction, or neither
resolves**, whatever the labels and wherever it stands. -/
theorem Abbreviates.toOption_instructions {w w' : Written} (h : Abbreviates w w') :
    ((w'.statement line).instructions labels address).toOption =
      ((w.statement line).instructions labels address).toOption := by
  cases h with
  | mv d s | not d s | neg d s | seqz d s | snez d s | sltz d s | sgtz d s =>
    refine toOption_pseudo labels address line rfl rfl ?_
    simp only [Statement.baseInstruction, Statement.pseudoInstruction, Statement.ofRegisters,
      register_x0, integer_zero, integer_one, integer_neg_one, signed_zero, signed_one,
      signed_neg_one, ok_bind]
  | beqz s t | bnez s t | blez s t | bgez s t | bltz s t | bgtz s t =>
    refine toOption_pseudo labels address line rfl rfl ?_
    simp only [Statement.baseInstruction, Statement.pseudoInstruction, Statement.ofZeroTest,
      register_x0, ok_bind, toOption_bind]
    rw [Option.bind_comm]
  | bgt a b t | ble a b t | bgtu a b t | bleu a b t =>
    exact toOption_pseudo labels address line rfl rfl rfl
  | nop =>
    refine toOption_pseudo labels address line rfl rfl ?_
    simp only [Statement.baseInstruction, Statement.pseudoInstruction, register_x0, integer_zero,
      signed_zero, ok_bind]
    rfl
  | j t =>
    refine toOption_pseudo labels address line rfl rfl ?_
    simp only [Statement.baseInstruction, Statement.pseudoInstruction, register_x0, ok_bind]
  | jr s =>
    exact toOption_pseudo labels address line rfl rfl
      (congrArg _ (baseInstruction_jalr labels address register_x0 s).1)
  | jrOffset s =>
    exact toOption_pseudo labels address line rfl rfl
      (congrArg _ (baseInstruction_jalr labels address register_x0 s).2)
  | ret =>
    refine toOption_pseudo labels address line rfl rfl (congrArg _ ?_)
    exact (baseInstruction_jalr labels address register_x0 "x1").1.trans (by rw [register_x1]; rfl)
  | retOffset =>
    refine toOption_pseudo labels address line rfl rfl (congrArg _ ?_)
    exact (baseInstruction_jalr labels address register_x0 "x1").2.trans (by rw [register_x1]; rfl)
  | jal t =>
    refine toOption_base labels address line rfl ?_
    simp only [Statement.baseInstruction, register_x1, ok_bind]
  | jalr s =>
    exact toOption_base labels address line rfl
      (congrArg _ (baseInstruction_jalr labels address register_x1 s).1)
  | jalrOffset s =>
    exact toOption_base labels address line rfl
      (congrArg _ (baseInstruction_jalr labels address register_x1 s).2)
  | fence =>
    refine toOption_base labels address line rfl ?_
    simp only [Statement.baseInstruction, fenceSet_iorw, ok_bind]
    rfl

end Resolving

theorem Abbreviates.size {w w' : Written} (h : Abbreviates w w') (line : Nat) :
    (w'.statement line).size = .ok 1 ∧ (w.statement line).size = .ok 1 := by
  cases h <;> exact ⟨rfl, rfl⟩

/-! ## Programs that are alike line by line -/

/-- Two lines declare the same, or the one has what a pseudo-instruction on the other stands for. -/
def AlikeLines (text' text : List Char) : Prop :=
  Line.read text' = Line.read text ∨ ∃ names w w', Line.read text' = .ok ⟨names, some w'⟩ ∧
    Line.read text = .ok ⟨names, some w⟩ ∧ Abbreviates w w'

/-- Two statements stand at the same place, and resolve alike. -/
structure AlikePlaced (p' p : Placed) : Prop where
  address : p'.address = p.address
  line : p'.statement.line = p.statement.line
  instructions : ∀ labels address, (p'.statement.instructions labels address).toOption =
    (p.statement.instructions labels address).toOption

theorem AlikePlaced.refl (p : Placed) : AlikePlaced p p := ⟨rfl, rfl, fun _ _ ↦ rfl⟩

/-- Two layouts have the same labels, and statements that are alike. -/
structure Alike (layout' layout : Layout) : Prop where
  labels : layout'.labels = layout.labels
  placed : List.Forall₂ AlikePlaced layout'.placed layout.placed

/-- Programs that are alike line by line are refused alike, or are laid out alike. -/
theorem ofLines_alike {lines' lines : List (List Char)} (h : List.Forall₂ AlikeLines lines' lines)
    (line : Nat) (address : Word) (labels : Labels) :
    Agree Alike (Layout.ofLines line address labels lines')
      (Layout.ofLines line address labels lines) := by
  induction h generalizing line address labels with
  | nil => exact .ok ⟨rfl, .nil⟩
  | @cons text' text rest' rest hline _ ih =>
    rw [Layout.ofLines, Layout.ofLines]
    rcases hline with hread | ⟨names, w, w', hread', hread, habbreviates⟩
    · rw [hread]
      refine .bind_self _ fun read ↦ .bind_self _ fun labels' ↦ ?_
      cases read.instruction with
      | none => exact ih _ _ _
      | some w =>
        exact .bind_self _ fun size ↦ (ih _ _ _).bind fun layout' layout hlayout ↦
          .ok ⟨hlayout.labels, .cons (.refl _) hlayout.placed⟩
    · rw [hread', hread]
      refine .bind_self (onLine line (declare address labels names)) fun labels' ↦ ?_
      obtain ⟨hsize', hsize⟩ := habbreviates.size line
      dsimp only
      rw [hsize', hsize]
      refine .bind_self (onLine line (.ok 1)) fun size ↦ (ih _ _ _).bind fun layout' layout hlayout ↦ ?_
      refine .ok ⟨hlayout.labels, .cons ⟨rfl, rfl, fun labels address ↦ ?_⟩ hlayout.placed⟩
      exact habbreviates.toOption_instructions labels address line

/-- Statements that are alike are resolved to the same words, or refused at the same line. -/
theorem wordsOf_alike {layout' layout : Layout} (hlabels : layout'.labels = layout.labels)
    {p' p : Placed} (h : AlikePlaced p' p) :
    (layout'.wordsOf p').mapError (·.line) = (layout.wordsOf p).mapError (·.line) := by
  have hsame := h.instructions layout.labels p.address
  rw [Layout.wordsOf, Layout.wordsOf, hlabels, h.address, h.line]
  cases hp' : p'.statement.instructions layout.labels p.address with
  | error fault' =>
    cases hp : p.statement.instructions layout.labels p.address with
    | error fault => rfl
    | ok resolved => rw [hp', hp] at hsame; cases hsame
  | ok resolved' =>
    rw [hp'] at hsame
    rw [eq_ok_of_toOption hsame.symm]

/-- **Programs that are alike line by line have the same words, or are refused at the same line.** -/
theorem assemble_alike {source' source : String}
    (h : List.Forall₂ AlikeLines (Text.lines source'.toList) (Text.lines source.toList)) :
    (assemble source').mapError (·.line) = (assemble source).mapError (·.line) := by
  have halike := ofLines_alike h 1 0 []
  rw [assemble, assemble, Layout.ofSource, Layout.ofSource]
  generalize Layout.ofLines 1 0 [] (Text.lines source'.toList) = laid' at halike
  generalize Layout.ofLines 1 0 [] (Text.lines source.toList) = laid at halike
  cases halike with
  | error failure => rfl
  | @ok layout' layout hlayout =>
    show (Layout.words layout').mapError _ = (Layout.words layout).mapError _
    have hchunks : (layout'.placed.mapM layout'.wordsOf).mapError (·.line) =
        (layout.placed.mapM layout.wordsOf).mapError (·.line) :=
      mapError_mapM_congr (R := AlikePlaced) (fun _ _ hp ↦ wordsOf_alike hlayout.labels hp)
        hlayout.placed
    rw [Layout.words, Layout.words, mapError_bind, mapError_bind]
    exact congrArg (· >>= fun chunks ↦ Except.mapError _ (pure chunks.flatten)) hchunks

/-! ## Replacing a line -/

theorem forall₂_set {α : Type} {R : α → α → Prop} (hrefl : ∀ x, R x x) {xs : List α} {i : Nat}
    {x x' : α} (hx : xs[i]? = some x) (h : R x' x) : List.Forall₂ R (xs.set i x') xs := by
  induction xs generalizing i with
  | nil => cases hx
  | cons first rest ih =>
    cases i with
    | zero =>
      obtain rfl := Option.some.inj hx
      exact .cons h (List.forall₂_same.2 fun y _ ↦ hrefl y)
    | succ i => exact .cons (hrefl first) (ih hx)

/-- What a statement stands for is a base instruction. -/
theorem Abbreviates.mem_baseNames {w w' : Written} (h : Abbreviates w w') :
    w'.name ∈ Mnemonic.baseNames.map (·.1) := by
  cases h <;> simp [Mnemonic.baseNames]

theorem isName_of_mem_baseNames {name : String} (h : name ∈ Mnemonic.baseNames.map (·.1)) :
    IsName name.toList ∧ isIdentifier name.toList = true := by
  have hall : ∀ name ∈ Mnemonic.baseNames.map (·.1),
      IsName name.toList ∧ isIdentifier name.toList = true := by decide
  exact hall name h

theorem isOperand_parenthesised {s : String} (h : IsOperand s.toList) :
    IsOperand ("0(" ++ s ++ ")").toList := by
  have hlist : ("0(" ++ s ++ ")").toList = ['0'] ++ '(' :: (s.toList ++ ')' :: []) := by simp
  have hlast : (['0'] ++ '(' :: (s.toList ++ ')' :: [])).getLast? = some ')' :=
    List.getLast?_concat (l := '0' :: '(' :: s.toList)
  have hclosed : Unmarked (s.toList ++ ')' :: []) :=
    h.unmarked.append_cons (unmarked_of_forall nofun) (by decide) (by decide)
  have hmem : ∀ c ∈ ['0'] ++ '(' :: (s.toList ++ ')' :: []), c ∈ s.toList ∨ c ∈ ['0', '(', ')'] := by
    intro c hc
    simp only [List.mem_append, List.mem_cons, List.not_mem_nil, or_false] at hc ⊢
    tauto
  rw [hlist]
  exact {
    ne_nil := List.cons_ne_nil _ _
    last := fun c hc ↦ by rw [hlast] at hc; rw [← Option.some.inj hc]; decide
    newline := fun hc ↦ (hmem _ hc).elim h.newline (by decide)
    unmarked := (unmarked_of_forall (by simp)).append_cons hclosed (by decide) (by decide)
    head := fun c hc ↦ by rw [← Option.some.inj hc]; decide
    comma := fun hc ↦ (hmem _ hc).elim h.comma (by decide) }

/-- What a statement stands for has operands that can be written if the statement has. -/
theorem Abbreviates.isOperand {w w' : Written} (h : Abbreviates w w')
    (hw : ∀ o ∈ w.operands, IsOperand o.toList) : ∀ o ∈ w'.operands, IsOperand o.toList := by
  have hfixed : ∀ o ∈ ["x0", "x1", "0", "1", "-1", "iorw"], IsOperand o.toList := by
    intro o ho
    have hall : ∀ o ∈ ["x0", "x1", "0", "1", "-1", "iorw"], o.toList ≠ [] ∧
        o.toList.all (fun c ↦ isIdentifierPart c || c == '-') = true := by decide
    refine isOperand_of_forall (hall o ho).1 fun c hc ↦ ?_
    simpa using List.all_eq_true.1 (hall o ho).2 c hc
  cases h with
  | jr s | jalr s =>
    have hs := isOperand_parenthesised (hw s List.mem_cons_self)
    simp_all
  | ret =>
    have hs := isOperand_parenthesised (hfixed "x1" (by simp))
    simp_all
  | _ => simp_all

/-- **A pseudo-instruction may be replaced by what it stands for.**  If a line of a source text has
labels and a pseudo-instruction of one word, every text that differs from it in that line alone, and
has there the same labels and the base instruction that the manual defines, has the same words, or
is refused at the same line.  There is such a text unless the first operand of the base instruction
begins with a colon: no line says that, since the name in front of the colon would be a label. -/
theorem expansions_agree {source : String} {i : Nat} {text : List Char} {names : List String}
    {w w' : Written} (htext : (Text.lines source.toList)[i]? = some text)
    (hread : Line.read text = .ok ⟨names, some w⟩) (h : Abbreviates w w') :
    (∀ (source' : String) (text' : List Char),
        Text.lines source'.toList = (Text.lines source.toList).set i text' →
        Line.read text' = .ok ⟨names, some w'⟩ →
        (assemble source').mapError (·.line) = (assemble source).mapError (·.line)) ∧
      ((∃ (source' : String) (text' : List Char),
          Text.lines source'.toList = (Text.lines source.toList).set i text' ∧
          Line.read text' = .ok ⟨names, some w'⟩) ↔
        ∀ o ∈ w'.operands.head?, o.toList.head? ≠ some ':') := by
  have hlines : ∀ line ∈ Text.lines source.toList, '\n' ∉ line := fun _ ↦ Text.not_mem_of_mem_lines
  obtain ⟨hnames, hoperands⟩ := isOperand_of_read (hlines _ (List.mem_of_getElem? htext)) hread
  refine ⟨fun source' text' hsource' hread' ↦ assemble_alike ?_, fun hexists ↦ ?_, fun hcolon ↦ ?_⟩
  · rw [hsource']
    exact forall₂_set (fun _ ↦ .inl rfl) htext (.inr ⟨names, w, w', hread', hread, h⟩)
  · obtain ⟨source', text', -, hread'⟩ := hexists
    exact colon_of_read (isName_of_mem_baseNames h.mem_baseNames).2 hread'
  · have hspellable : w'.IsSpellable :=
      ⟨(isName_of_mem_baseNames h.mem_baseNames).1, h.isOperand hoperands, hcolon⟩
    refine ⟨String.ofList (Text.terminated ((Text.lines source.toList).set i
      (Line.spell w' names))), _, ?_, read_spell hspellable hnames⟩
    rw [String.toList_ofList, Text.lines_terminated]
    intro line hline
    rcases List.mem_or_eq_of_mem_set hline with hline | rfl
    · exact hlines line hline
    · exact (legible_spell hspellable hnames).newline

/-- A comparison that holds the other way round, with a label of its own line as the target. -/
theorem expansions_agree_of_loop :
    assemble "again: bleu a0, t1, again\nret" = .ok [0x00a37063, 0x00008067] ∧
      (assemble "again: bgeu t1, a0, again\nret").mapError (·.line) = .ok [0x00a37063, 0x00008067] := by
  have hwords : assemble "again: bleu a0, t1, again\nret" = .ok [0x00a37063, 0x00008067] := by
    decide +kernel
  have htext : (Text.lines "again: bleu a0, t1, again\nret".toList)[0]? =
      some "again: bleu a0, t1, again".toList := by decide +kernel
  have hread : Line.read "again: bleu a0, t1, again".toList =
      .ok ⟨["again"], some ⟨"bleu", ["a0", "t1", "again"]⟩⟩ := by decide +kernel
  obtain ⟨hagree, -⟩ := expansions_agree htext hread (.bleu "a0" "t1" "again")
  refine ⟨hwords, ?_⟩
  have hsame := hagree "again: bgeu t1, a0, again\nret" "again: bgeu t1, a0, again".toList
    (by decide +kernel) (by decide +kernel)
  rw [hsame, hwords]
  rfl

end Assembly
end FirmwareLane
