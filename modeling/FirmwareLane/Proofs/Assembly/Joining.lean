import FirmwareLane.Proofs.Assembly.Spelling

/-!
# Two programs, one behind the other

Where two accepted programs declare no label twice, the one text behind the other is accepted, and
its words are the words of both.  The first program finds more labels than it had, and the second
one stands at other addresses, on other lines, and behind the labels of the first; none of this may
show in a word.

## What is here

* `Laid.append` puts the second layout behind the first one, and `Laid.moved` lays the second program
  out where the first one ends: `Layout.moved` is its layout with every address and line further on.
* `KeepsDistances` and `KeepsDistances.instructions`: a statement is resolved to the same
  instructions wherever its operands are at the same distances.  What remains is that distances
  stay, which is `Accepted.keepsDistances` for the first program and
  `Accepted.keepsDistances_moved` for the second.  The latter is where the words have to be few
  enough, for an address that wraps around is at another distance.
* `assemble_append` is the statement about source texts.
-/

set_option autoImplicit false
namespace FirmwareLane
namespace Assembly

open Outcome

/-! ## From a layout back to its computation -/

theorem ofLines_of_laid {line : Nat} {address : Word} {labels : Labels} {lines : List (List Char)}
    {layout : Layout} (h : Laid line address labels lines layout) :
    Layout.ofLines line address labels lines = .ok layout := by
  induction h with
  | nil => rfl
  | blank hread hdeclare _ ih =>
    rw [Layout.ofLines, hread]
    exact bind_eq_ok.2 ⟨_, rfl, bind_eq_ok.2 ⟨_, onLine_eq_ok.2 hdeclare, ih⟩⟩
  | statement hread hdeclare hsize _ ih =>
    rw [Layout.ofLines, hread]
    exact bind_eq_ok.2 ⟨_, rfl, bind_eq_ok.2 ⟨_, onLine_eq_ok.2 hdeclare,
      bind_eq_ok.2 ⟨_, onLine_eq_ok.2 hsize, bind_eq_ok.2 ⟨_, ih, rfl⟩⟩⟩⟩

theorem Emitted.words_eq {layout : Layout} {pairs : List (Placed × List Word)}
    (h : Emitted layout pairs) : layout.words = .ok (pairs.flatMap (·.2)) := by
  refine bind_eq_ok.2 ⟨pairs.map (·.2), mapM_eq_ok.2 ?_, by rw [List.flatMap_def]; rfl⟩
  rw [← h.placed, List.forall₂_map_left_iff, List.forall₂_map_right_iff, List.forall₂_same]
  exact h.wordsOf

/-! ## The lines of both texts -/

theorem uncommented_concat_return (text : List Char) :
    uncommented (text ++ ['\r']) = uncommented text ∨
      uncommented (text ++ ['\r']) = uncommented text ++ ['\r'] := by
  fun_induction uncommented text with
  | case1 => exact .inr rfl
  | case2 rest => exact .inl rfl
  | case3 c rest hslashes hmark =>
    rcases hmark with rfl | rfl <;> exact .inl rfl
  | case4 c rest hslashes hmark ih =>
    have hno : ∀ tail, c = '/' → rest ++ ['\r'] = '/' :: tail → False := by
      intro tail hc heq
      cases rest with
      | nil => exact absurd (List.cons.inj heq).1 (by decide)
      | cons d more => exact hslashes more hc (by rw [(List.cons.inj heq).1])
    rw [List.cons_append, uncommented, if_neg hmark]
    · exact ih.imp (congrArg _) (congrArg _)
    · exact hno

/-- A carriage return at the end of a line does not change what the line declares. -/
theorem read_concat_return (text : List Char) : Line.read (text ++ ['\r']) = Line.read text := by
  rw [Line.read, Line.read]
  rcases uncommented_concat_return text with h | h
  · rw [h]
  · rw [h, Text.trim_concat_blank (by decide)]

/-- A line feed at the end of a program does not change how it is laid out. -/
theorem Laid.ended {line : Nat} {address : Word} {labels : Labels} {text text' : List (List Char)}
    {layout : Layout} (h : Laid line address labels text layout) (he : Text.Ended text text') :
    Laid line address labels text' layout := by
  induction he generalizing line address labels layout with
  | blank =>
    cases h
    exact .blank read_nil rfl (.nil _ _ _)
  | last => exact h
  | carriage l =>
    cases h with
    | blank hread hdeclare hrest =>
      exact .blank ((read_concat_return l).symm.trans hread) hdeclare hrest
    | statement hread hdeclare hsize hrest =>
      exact .statement ((read_concat_return l).symm.trans hread) hdeclare hsize hrest
  | cons l _ ih =>
    cases h with
    | blank hread hdeclare hrest => exact .blank hread hdeclare (ih hrest)
    | statement hread hdeclare hsize hrest => exact .statement hread hdeclare hsize (ih hrest)

/-- The statements of a layout behind those of another one. -/
def Layout.append (first second : Layout) : Layout :=
  ⟨first.placed ++ second.placed, second.labels⟩

/-- **A layout behind another one**, where the first one ends. -/
theorem Laid.append {line : Nat} {address : Word} {labels : Labels}
    {front behind : List (List Char)} {first second : Layout} {pairs : List (Placed × List Word)}
    (h : Laid line address labels front first) (he : Emitted first pairs)
    (h' : Laid (line + front.length)
      (address + BitVec.ofNat 32 (4 * (pairs.flatMap (·.2)).length)) first.labels behind second) :
    Laid line address labels (front ++ behind) (first.append second) := by
  induction h generalizing pairs with
  | nil line address labels =>
    obtain rfl := List.map_eq_nil_iff.1 he.placed
    simpa [Layout.append] using h'
  | blank hread hdeclare _ ih =>
    refine .blank hread hdeclare (ih he ?_)
    rwa [Nat.add_assoc, Nat.add_comm 1, ← List.length_cons]
  | @statement line address labels labels' text rest layout names written size hread hdeclare hsize
      hrest ih =>
    obtain ⟨words, pairs, rfl, hwords, hbelow⟩ := he.exists_cons
    obtain rfl : size = words.length := Except.ok.inj (hsize.symm.trans hwords)
    refine .statement hread hdeclare hsize (ih hbelow ?_)
    rw [List.length_cons, List.flatMap_cons, List.length_append, Nat.mul_add, BitVec.ofNat_add,
      ← BitVec.add_assoc] at h'
    rwa [Nat.add_assoc, Nat.add_comm 1]

/-! ## A program that is moved -/

/-- Labels that are a number of bytes further on. -/
def movedLabels (distance : Word) (labels : Labels) : Labels :=
  labels.map fun (name, address) ↦ (name, address + distance)

/-- A statement a number of lines and bytes further on. -/
def Placed.moved (count : Nat) (distance : Word) (p : Placed) : Placed :=
  ⟨p.address + distance, { p.statement with line := p.statement.line + count }⟩

/-- A layout a number of lines and bytes further on, behind labels that were declared before. -/
def Layout.moved (count : Nat) (distance : Word) (before : Labels) (layout : Layout) : Layout :=
  ⟨layout.placed.map (Placed.moved count distance), movedLabels distance layout.labels ++ before⟩

theorem lookup_movedLabels (distance : Word) (labels before : Labels) (name : String) :
    (movedLabels distance labels ++ before).lookup name =
      ((labels.lookup name).map (· + distance)).or (before.lookup name) := by
  rw [List.lookup_append, movedLabels, Keyed.lookup_map (· + distance)]

/-- The labels that a source text declares. -/
def declared (source : String) : List String :=
  (Text.lines source.toList).flatMap labelsOn

theorem declare_moved {address : Word} {labels labels' : Labels} {names : List String}
    (h : declare address labels names = .ok labels') (distance : Word) {before : Labels}
    (hbefore : ∀ name ∈ names, before.lookup name = none) :
    declare (address + distance) (movedLabels distance labels ++ before) names =
      .ok (movedLabels distance labels' ++ before) := by
  induction names generalizing labels with
  | nil => rw [← Except.ok.inj h]; rfl
  | cons name rest ih =>
    rw [declare] at h ⊢
    split at h
    · cases h
    · next hfree =>
      rw [Option.not_isSome_iff_eq_none] at hfree
      rw [lookup_movedLabels, hfree, hbefore name List.mem_cons_self, if_neg (by simp)]
      exact ih h fun other hother ↦ hbefore other (List.mem_cons_of_mem _ hother)

/-- **A program is laid out further on as it is**, behind labels of other names. -/
theorem Laid.moved {line : Nat} {address : Word} {labels : Labels} {lines : List (List Char)}
    {layout : Layout} (h : Laid line address labels lines layout) (count : Nat) (distance : Word)
    {before : Labels} (hbefore : ∀ text ∈ lines, ∀ name ∈ labelsOn text, before.lookup name = none) :
    Laid (line + count) (address + distance) (movedLabels distance labels ++ before) lines
      (layout.moved count distance before) := by
  induction h with
  | nil line address labels => exact .nil _ _ _
  | @blank line address labels labels' text rest layout names hread hdeclare hrest ih =>
    have hnames : labelsOn text = names := by rw [labelsOn, hread]
    have hhere := declare_moved hdeclare distance (hnames ▸ hbefore text List.mem_cons_self)
    refine .blank hread hhere ?_
    rw [Nat.add_right_comm]
    exact ih fun other hother ↦ hbefore other (List.mem_cons_of_mem _ hother)
  | @statement line address labels labels' text rest layout names written size hread hdeclare hsize
      hrest ih =>
    have hnames : labelsOn text = names := by rw [labelsOn, hread]
    have hhere := declare_moved hdeclare distance (hnames ▸ hbefore text List.mem_cons_self)
    have hmoved : (written.statement (line + count)).size = .ok size := hsize
    show Laid _ _ _ _ ⟨⟨address + distance, written.statement (line + count)⟩ ::
      (layout.moved count distance before).placed, (layout.moved count distance before).labels⟩
    refine .statement hread hhere hmoved ?_
    rw [Nat.add_right_comm, add_right_comm address]
    exact ih fun other hother ↦ hbefore other (List.mem_cons_of_mem _ hother)

/-! ## What a statement is resolved to -/

section Resolving

variable {labels labels' : Labels} {address address' : Word}

/-- Whatever is at a distance stays at that distance. -/
def KeepsDistances (labels labels' : Labels) (address address' : Word) : Prop :=
  ∀ operand d, Operand.distance labels address operand = .ok d →
    Operand.distance labels' address' operand = .ok d

/-- The field of a branch or a jump is the same, and so is what is made of it. -/
theorem KeepsDistances.bind_target (h : KeepsDistances labels labels' address address') {bits : Nat}
    {operand : String} {α : Type} {f : BitVec bits → Except Fault α} {result : α}
    (ht : Operand.target bits labels address operand >>= f = .ok result) :
    Operand.target bits labels' address' operand >>= f = .ok result := by
  obtain ⟨field, hfield, hresult⟩ := bind_eq_ok.1 ht
  obtain ⟨d, hd, hfield⟩ := bind_eq_ok.1 hfield
  exact bind_eq_ok.2 ⟨field, bind_eq_ok.2 ⟨d, h operand d hd, hfield⟩, hresult⟩

theorem KeepsDistances.baseInstruction (h : KeepsDistances labels labels' address address')
    {operands : List String} {b : Base} {i : Instruction}
    (hi : Statement.baseInstruction labels address operands b = .ok i) :
    Statement.baseInstruction labels' address' operands b = .ok i := by
  cases b with
  | branch op =>
    simp only [Statement.baseInstruction] at hi ⊢
    split at hi
    · exact h.bind_target hi
    · cases hi
  | jal =>
    simp only [Statement.baseInstruction] at hi ⊢
    split at hi
    · exact h.bind_target hi
    · obtain ⟨rd, hrd, hi⟩ := bind_eq_ok.1 hi
      exact bind_eq_ok.2 ⟨rd, hrd, h.bind_target hi⟩
    · cases hi
  | _ => exact hi

theorem KeepsDistances.pseudoInstruction (h : KeepsDistances labels labels' address address')
    {operands : List String} {p : Pseudo} {i : Instruction}
    (hi : Statement.pseudoInstruction labels address operands p = .ok i) :
    Statement.pseudoInstruction labels' address' operands p = .ok i := by
  cases p with
  | j =>
    simp only [Statement.pseudoInstruction] at hi ⊢
    split at hi
    · exact h.bind_target hi
    · cases hi
  | beqz | bnez | blez | bgez | bltz | bgtz =>
    simp only [Statement.pseudoInstruction, Statement.ofZeroTest] at hi ⊢
    split at hi
    · obtain ⟨tested, htested, hi⟩ := bind_eq_ok.1 hi
      exact bind_eq_ok.2 ⟨tested, htested, h.bind_target hi⟩
    · cases hi
  | bgt | ble | bgtu | bleu =>
    simp only [Statement.pseudoInstruction, Statement.ofSwapped] at hi ⊢
    split at hi
    · exact h.bind_target hi
    · cases hi
  | _ => exact hi

/-- **A statement is resolved to the same instructions where distances are kept.** -/
theorem KeepsDistances.instructions (h : KeepsDistances labels labels' address address')
    {statement : Statement} {resolved : List Instruction}
    (hresolved : statement.instructions labels address = .ok resolved) :
    statement.instructions labels' address' = .ok resolved := by
  rw [Statement.instructions] at hresolved ⊢
  split at hresolved
  · exact hresolved
  · obtain ⟨i, hi, hresolved⟩ := bind_eq_ok.1 hresolved
    exact bind_eq_ok.2 ⟨i, h.baseInstruction hi, hresolved⟩
  · obtain ⟨i, hi, hresolved⟩ := bind_eq_ok.1 hresolved
    exact bind_eq_ok.2 ⟨i, h.pseudoInstruction hi, hresolved⟩
  · cases hresolved

/-- Distances are told by the addresses of the labels. -/
theorem keepsDistances_of_lookup
    (h : ∀ name a, labels.lookup name = some a → ∃ a', labels'.lookup name = some a' ∧
      (a'.toNat : Int) - address'.toNat = a.toNat - address.toNat) :
    KeepsDistances labels labels' address address' := by
  intro operand d hd
  rw [Operand.distance] at hd ⊢
  split at hd
  · exact hd
  · split at hd
    · next hid =>
      split at hd
      · next a ha =>
        obtain ⟨a', ha', hsame⟩ := h operand a ha
        rw [if_pos hid, ha']
        exact (congrArg Except.ok hsame).trans hd
      · cases hd
    · cases hd

end Resolving

/-- A statement that is resolved is resolved to the same words where distances are kept. -/
theorem KeepsDistances.wordsOf {layout layout' : Layout} {p : Placed} {address : Word} {line : Nat}
    (h : KeepsDistances layout.labels layout'.labels p.address address) {words : List Word}
    (hwords : layout.wordsOf p = .ok words) :
    layout'.wordsOf ⟨address, { p.statement with line }⟩ = .ok words := by
  obtain ⟨resolved, hresolved, hwords⟩ := bind_eq_ok.1 (onLine_eq_ok.1 hwords)
  exact onLine_eq_ok.2 (bind_eq_ok.2 ⟨resolved, h.instructions hresolved, hwords⟩)

/-! ## Whole source texts -/

namespace Accepted

variable {a b : String} {wa wb : List Word} {la lb : Layout} {pa pb : List (Placed × List Word)}

theorem mem_declared (h : Accepted a wa la pa) (hfew : wa.length < 2 ^ 30) {name : String}
    {address : Word} (hname : la.labels.lookup name = some address) : name ∈ declared a := by
  obtain ⟨i, text, htext, hon, -⟩ := (h.lookup_labels hfew name address).1 hname
  exact List.mem_flatMap.2 ⟨text, List.mem_of_getElem? htext, hon⟩

/-- No label lies behind the last word. -/
theorem toNat_lookup_le (h : Accepted a wa la pa) (hfew : wa.length < 2 ^ 30) {name : String}
    {address : Word} (hname : la.labels.lookup name = some address) :
    address.toNat ≤ 4 * wa.length := by
  obtain ⟨i, text, -, -, haddress⟩ := (h.lookup_labels hfew name address).1 hname
  have hle := h.length_wordsAbove_le (i + 1)
  omega

theorem toNat_address_le (h : Accepted a wa la pa) (hfew : wa.length < 2 ^ 30)
    {pair : Placed × List Word} (hpair : pair ∈ pa) : pair.1.address.toNat ≤ 4 * wa.length := by
  have hle := h.length_wordsAbove_le pair.1.statement.line
  rw [h.toNat_address hfew hpair]
  omega

/-- The first program keeps its distances when labels of other names are added. -/
theorem keepsDistances (h : Accepted a wa la pa) (hfew : wa.length < 2 ^ 30) {more : Labels}
    (hmore : ∀ name ∈ declared a, more.lookup name = none) (address : Word) :
    KeepsDistances la.labels (more ++ la.labels) address address :=
  keepsDistances_of_lookup fun name target htarget ↦ by
    refine ⟨target, ?_, rfl⟩
    rw [List.lookup_append, hmore name (h.mem_declared hfew htarget), htarget]
    rfl

/-- The second program keeps its distances when it is moved behind the first one. -/
theorem keepsDistances_moved (h : Accepted b wb lb pb) {count : Nat}
    (hfew : count + wb.length < 2 ^ 30) (before : Labels) {pair : Placed × List Word}
    (hpair : pair ∈ pb) :
    KeepsDistances lb.labels (movedLabels (BitVec.ofNat 32 (4 * count)) lb.labels ++ before)
      pair.1.address (pair.1.address + BitVec.ofNat 32 (4 * count)) :=
  keepsDistances_of_lookup fun name target htarget ↦ by
    refine ⟨target + BitVec.ofNat 32 (4 * count), by rw [lookup_movedLabels, htarget]; rfl, ?_⟩
    have hsmall : wb.length < 2 ^ 30 := by omega
    have hlabel := h.toNat_lookup_le hsmall htarget
    have haddress := h.toNat_address_le hsmall hpair
    rw [Laid.toNat_add_words _ _ (by omega), Laid.toNat_add_words _ _ (by omega)]
    omega

/-- No label of the first program has the name of one of the second program. -/
theorem lookup_eq_none (h : Accepted a wa la pa) (hfew : wa.length < 2 ^ 30)
    (hdisjoint : ∀ name ∈ declared a, name ∉ declared b) {name : String}
    (hname : name ∈ declared b) : la.labels.lookup name = none := by
  cases hlookup : la.labels.lookup name with
  | none => rfl
  | some address => exact absurd hname (hdisjoint name (h.mem_declared hfew hlookup))

theorem lookup_moved_eq_none (h : Accepted b wb lb pb) (hfew : wb.length < 2 ^ 30)
    (hdisjoint : ∀ name ∈ declared a, name ∉ declared b) (distance : Word) {name : String}
    (hname : name ∈ declared a) : (movedLabels distance lb.labels).lookup name = none := by
  have hlookup : lb.labels.lookup name = none :=
    h.lookup_eq_none hfew (fun other hb ha ↦ hdisjoint other ha hb) hname
  rw [← List.append_nil (movedLabels distance lb.labels), lookup_movedLabels, hlookup]
  rfl

/-- **Both programs are resolved to the words that they had.** -/
theorem emitted_append (hA : Accepted a wa la pa) (hB : Accepted b wb lb pb)
    (hdisjoint : ∀ name ∈ declared a, name ∉ declared b) (hfew : wa.length + wb.length < 2 ^ 30)
    (count : Nat) :
    Emitted (la.append (lb.moved count (BitVec.ofNat 32 (4 * wa.length)) la.labels))
      (pa ++ pb.map fun pair ↦ (pair.1.moved count (BitVec.ofNat 32 (4 * wa.length)), pair.2)) where
  placed := by
    rw [List.map_append, hA.emitted.placed, Layout.append, Layout.moved, ← hB.emitted.placed,
      List.map_map, List.map_map]
    rfl
  wordsOf pair hpair := by
    rcases List.mem_append.1 hpair with hpair | hpair
    · exact (hA.keepsDistances (by omega)
        (fun _ ↦ hB.lookup_moved_eq_none (by omega) hdisjoint _) _).wordsOf
          (hA.emitted.wordsOf pair hpair)
    · obtain ⟨first, hfirst, rfl⟩ := List.mem_map.1 hpair
      exact (hB.keepsDistances_moved hfew la.labels hfirst).wordsOf (hB.emitted.wordsOf first hfirst)

end Accepted

/-- **Assembly is compositional and position independent.**  If two source texts are accepted, no
label is declared in both, and they have so few words that an address reaches them all, the second
text behind the first one, on a line of its own, is accepted too, and has the words of the first
text and then those of the second one. -/
theorem assemble_append {a b : String} {wa wb : List Word} (ha : assemble a = .ok wa)
    (hb : assemble b = .ok wb) (hdisjoint : ∀ name ∈ declared a, name ∉ declared b)
    (hfew : wa.length + wb.length < 2 ^ 30) : assemble (a ++ "\n" ++ b) = .ok (wa ++ wb) := by
  obtain ⟨la, pa, hA⟩ := exists_accepted ha
  obtain ⟨lb, pb, hB⟩ := exists_accepted hb
  have hlines : Text.lines (a ++ "\n" ++ b).toList =
      Text.lines (a.toList ++ ['\n']) ++ Text.lines b.toList := by
    rw [← Text.lines_append_feed]
    simp
  have hfront := hA.laid.ended (Text.ended_lines a.toList)
  generalize Text.lines (a.toList ++ ['\n']) = front at hlines hfront
  -- the second program, laid out where the first one ends
  have hmoved := hB.laid.moved front.length (BitVec.ofNat 32 (4 * wa.length))
    fun text htext name hname ↦ hA.lookup_eq_none (by omega) hdisjoint
      (List.mem_flatMap.2 ⟨text, htext, hname⟩)
  have hlaid := hfront.append hA.emitted (hA.words_eq ▸ hmoved)
  rw [← hA.words_eq] at hlaid
  have hwords : wa ++ wb = (pa ++ pb.map fun pair ↦
      (pair.1.moved front.length (BitVec.ofNat 32 (4 * wa.length)), pair.2)).flatMap (·.2) := by
    rw [List.flatMap_append, List.flatMap_map, ← hA.words_eq, ← hB.words_eq]
  rw [hwords]
  refine bind_eq_ok.2 ⟨_, ?_, (hA.emitted_append hB hdisjoint hfew front.length).words_eq⟩
  rw [Layout.ofSource, hlines]
  exact ofLines_of_laid hlaid

/-- Two loops.  The carriage return that ends the first one becomes a part of the line end. -/
theorem assemble_append_of_loops :
    assemble "a: addi t0, t0, 1\nbnez t0, a\r" = .ok [0x00128293, 0xfe029ee3] ∧
      assemble "b: li t1, 4096\nj b" = .ok [0x00001337, 0xffdff06f] ∧
      assemble ("a: addi t0, t0, 1\nbnez t0, a\r" ++ "\n" ++ "b: li t1, 4096\nj b") =
        .ok [0x00128293, 0xfe029ee3, 0x00001337, 0xffdff06f] := by
  have ha : assemble "a: addi t0, t0, 1\nbnez t0, a\r" = .ok [0x00128293, 0xfe029ee3] := by
    decide +kernel
  have hb : assemble "b: li t1, 4096\nj b" = .ok [0x00001337, 0xffdff06f] := by decide +kernel
  exact ⟨ha, hb, assemble_append ha hb (by decide +kernel) (by decide)⟩

end Assembly
end FirmwareLane
